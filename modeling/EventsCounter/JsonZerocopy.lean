import EventsCounter.JsonText
import EventsCounter.SizedBufferStream

/-!
# `JSON`

The document RapidJSON builds in situ: its strings are not in it, but in the payload, each one where it
has been put back, with a NUL after it. RapidJSON's reader is any client of an in-situ stream that
follows the JSON grammar as long as the stream behaves like the ideal one (`FollowsGrammar`). On
`SizedBufferStream` it then builds the same document, and the payload holds its strings afterwards
(`parses_document`).
-/

namespace EventsCounter

open InSitu (Op Answer Ideal slice)

/-- A document whose strings are given by where they begin and how long they are. -/
inductive Dom
  | null
  | bool (b : Bool)
  | number (n : Number)
  | string (begin length : ℕ)
  | array (elems : List Dom)
  | object (members : List ((ℕ × ℕ) × Dom))

namespace Dom

mutual

/-- The value, with the strings `read` finds; `none` where it finds none. -/
def resolve (read : ℕ → ℕ → Option Bytes) : Dom → Option Json
  | .null => some .null
  | .bool b => some (.bool b)
  | .number n => some (.number n)
  | .string begin length => (read begin length).map .string
  | .array elems => (resolveElems read elems).map .array
  | .object members => (resolveMembers read members).map .object

def resolveElems (read : ℕ → ℕ → Option Bytes) : List Dom → Option (List Json)
  | [] => some []
  | d :: ds => do
    let v ← resolve read d
    let vs ← resolveElems read ds
    some (v :: vs)

def resolveMembers (read : ℕ → ℕ → Option Bytes) : List ((ℕ × ℕ) × Dom) → Option (List (Bytes × Json))
  | [] => some []
  | ((begin, length), d) :: ms => do
    let name ← read begin length
    let v ← resolve read d
    let rest ← resolveMembers read ms
    some ((name, v) :: rest)

end

variable {read read' : ℕ → ℕ → Option Bytes}

mutual

theorem resolve_mono (h : ∀ b n s, read b n = some s → read' b n = some s) :
    ∀ (d : Dom) (v : Json), resolve read d = some v → resolve read' d = some v
  | .null, _, hv => hv
  | .bool _, _, hv => hv
  | .number _, _, hv => hv
  | .string b n, v, hv => by
    obtain ⟨s, hs, rfl⟩ := Option.map_eq_some_iff.1 hv
    exact Option.map_eq_some_iff.2 ⟨s, h b n s hs, rfl⟩
  | .array elems, v, hv => by
    obtain ⟨vs, hvs, rfl⟩ := Option.map_eq_some_iff.1 hv
    exact Option.map_eq_some_iff.2 ⟨vs, resolveElems_mono h elems vs hvs, rfl⟩
  | .object members, v, hv => by
    obtain ⟨ms, hms, rfl⟩ := Option.map_eq_some_iff.1 hv
    exact Option.map_eq_some_iff.2 ⟨ms, resolveMembers_mono h members ms hms, rfl⟩

theorem resolveElems_mono (h : ∀ b n s, read b n = some s → read' b n = some s) :
    ∀ (ds : List Dom) (vs : List Json), resolveElems read ds = some vs → resolveElems read' ds = some vs
  | [], _, hvs => hvs
  | d :: ds, vs, hvs => by
    obtain ⟨v, hv, hrest⟩ := Option.bind_eq_some_iff.1 hvs
    obtain ⟨vs', hvs', heq⟩ := Option.bind_eq_some_iff.1 hrest
    exact Option.bind_eq_some_iff.2 ⟨v, resolve_mono h d v hv,
      Option.bind_eq_some_iff.2 ⟨vs', resolveElems_mono h ds vs' hvs', heq⟩⟩

theorem resolveMembers_mono (h : ∀ b n s, read b n = some s → read' b n = some s) :
    ∀ (ds : List ((ℕ × ℕ) × Dom)) (ms : List (Bytes × Json)),
      resolveMembers read ds = some ms → resolveMembers read' ds = some ms
  | [], _, hms => hms
  | ((b, n), d) :: ds, ms, hms => by
    obtain ⟨name, hname, hrest⟩ := Option.bind_eq_some_iff.1 hms
    obtain ⟨v, hv, hrest⟩ := Option.bind_eq_some_iff.1 hrest
    obtain ⟨ms', hms', heq⟩ := Option.bind_eq_some_iff.1 hrest
    exact Option.bind_eq_some_iff.2 ⟨name, h b n name hname, Option.bind_eq_some_iff.2 ⟨v, resolve_mono h d v hv,
      Option.bind_eq_some_iff.2 ⟨ms', resolveMembers_mono h ds ms' hms', heq⟩⟩⟩

end

/-! ### Where the strings are -/

/-- The string of `n` characters that begins at `b` in the buffer, if there is a NUL after it. -/
def readBuffer (buffer : Bytes) (b n : ℕ) : Option Bytes :=
  if buffer[b + n]? = some 0 then some (slice buffer b n) else none

/-- The string of `n` characters that has been finished at `b`, a NUL being put last. -/
def readCompleted (completed : List (ℕ × Bytes)) (b n : ℕ) : Option Bytes :=
  (completed.find? fun e => e.1 = b ∧ e.2.length = n + 1 ∧ e.2.getLast? = some 0).map fun e => e.2.dropLast

theorem mem_of_readCompleted {completed : List (ℕ × Bytes)} {b n : ℕ} {s : Bytes}
    (h : readCompleted completed b n = some s) : (b, s ++ [0]) ∈ completed ∧ s.length = n := by
  obtain ⟨e, he, rfl⟩ := Option.map_eq_some_iff.1 h
  have hmem := List.mem_of_find?_eq_some he
  have htest := List.find?_some he
  simp only [decide_eq_true_eq] at htest
  obtain ⟨rfl, hlen, hlast⟩ := htest
  have htext : e.2.dropLast ++ [0] = e.2 := List.dropLast_append_getLast? 0 hlast
  rw [htext, List.length_dropLast]
  exact ⟨hmem, by omega⟩

theorem readBuffer_of_slice {buffer s : Bytes} {b : ℕ} (h : slice buffer b (s ++ [0]).length = s ++ [0]) :
    readBuffer buffer b s.length = some s := by
  rw [List.length_append, List.length_singleton] at h
  have hnul : buffer[b + s.length]? = some 0 := by
    rw [← InSitu.getElem?_slice (Nat.lt_succ_self _), h]
    simp
  have hchars : slice buffer b s.length = s := by
    rw [← InSitu.take_slice (Nat.le_succ _), h]
    simp
  rw [readBuffer, if_pos hnul, hchars]

end Dom

namespace JSON

/-- RapidJSON's reader with the handler that builds the document; `none` is a parse error. -/
abbrev Reader := Sessions.Client (Op UInt8) (Answer UInt8) (Option Dom)

/-- `JSON::JSON`: what becomes of the document, and of the payload. -/
def Parses (reader : Reader) (payload : Bytes) (document : Option Dom) (buffer : Bytes) : Prop :=
  ∃ s, Sessions.Plays SizedBufferStream.perform reader (SizedBufferStream.make payload) document s ∧ s.payload = buffer

/-- On an ideal stream over a JSON text the reader builds the value the text stands for, every string
of it finished with a NUL. -/
def FollowsGrammar (double : Bytes → Option UInt64) (reader : Reader) (text : Bytes) : Prop :=
  ∀ v, JsonText.document double text = some v → ∃ dom r,
    Sessions.Plays (Ideal.perform 0) reader (Ideal.make text) (some dom) r ∧
      dom.resolve (Dom.readCompleted r.completed) = some v

variable {reader : Reader} {payload : Bytes}

theorem Parses.unique {document document' : Option Dom} {buffer buffer' : Bytes}
    (h : Parses reader payload document buffer) (h' : Parses reader payload document' buffer') :
    document = document' ∧ buffer = buffer' := by
  obtain ⟨s, hs, rfl⟩ := h
  obtain ⟨s', hs', rfl⟩ := h'
  obtain ⟨hdocument, rfl⟩ := hs.unique hs'
  exact ⟨hdocument, rfl⟩

/-- The document of a JSON text, its strings in the payload, which need not end in a NUL. -/
theorem parses_document {double : Bytes → Option UInt64} {v : Json} (hreader : FollowsGrammar double reader payload)
    (hv : JsonText.document double payload = some v) :
    ∃ dom buffer, Parses reader payload (some dom) buffer ∧ dom.resolve (Dom.readBuffer buffer) = some v := by
  obtain ⟨dom, r, hplays, hdom⟩ := hreader v hv
  obtain ⟨s, hs, hr⟩ := Sessions.plays_simulation SizedBufferStream.simulates (SizedBufferStream.refines_make payload) hplays
  refine ⟨dom, s.payload, ⟨s, hs, rfl⟩, Dom.resolve_mono ?_ dom v hdom⟩
  intro b n content hcontent
  obtain ⟨hmem, rfl⟩ := Dom.mem_of_readCompleted hcontent
  exact Dom.readBuffer_of_slice (hr.completed b _ hmem).2

end JSON
end EventsCounter
