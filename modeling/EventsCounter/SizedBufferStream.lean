import EventsCounter.Data
import EventsCounter.Lib.InSitu

/-!
# `SizedBufferStream`

The stream RapidJSON parses a Kafka message from: one buffer, a position it is read at and one it is
written at. `Refines` ties it to the ideal in-situ stream: the write position is as far behind the
read position as there are characters taken and not put, so that nothing is written where the text
has not been read yet, and every finished string ends at or before the write position.
-/

namespace EventsCounter

open InSitu (Op Answer Ideal slice)

/-- `size` is the length of the payload. -/
structure SizedBufferStream where
  payload : Bytes
  readPos : ℕ
  writePos : ℕ

namespace SizedBufferStream

def size (s : SizedBufferStream) : ℕ := s.payload.length

def make (tMsg : Bytes) : SizedBufferStream := ⟨tMsg, 0, 0⟩

/-- `payload[i]`; `none` is an access outside of the buffer. -/
def load (s : SizedBufferStream) (i : ℕ) : Option UInt8 := s.payload[i]?

def store (s : SizedBufferStream) (i : ℕ) (c : UInt8) : Option SizedBufferStream :=
  if i < s.payload.length then some { s with payload := s.payload.set i c } else none

def peek (s : SizedBufferStream) : Option UInt8 :=
  if s.readPos < s.size then s.load s.readPos else some 0

def take (s : SizedBufferStream) : Option (UInt8 × SizedBufferStream) :=
  if s.readPos < s.size then (s.load s.readPos).map fun c => (c, { s with readPos := s.readPos + 1 })
  else some (0, s)

def tell (s : SizedBufferStream) : ℕ := s.readPos

def put (s : SizedBufferStream) (c : UInt8) : Option SizedBufferStream :=
  if s.writePos < s.size then (s.store s.writePos c).map fun s => { s with writePos := s.writePos + 1 }
  else some s

/-- The pointer is its distance from `payload`. -/
def putBegin (s : SizedBufferStream) : ℕ × SizedBufferStream := (s.readPos, { s with writePos := s.readPos })

def putEnd (s : SizedBufferStream) (begin : ℕ) : ℕ := s.writePos - begin

def perform (s : SizedBufferStream) : Op UInt8 → Option (Answer UInt8 × SizedBufferStream)
  | .peek => s.peek.map fun c => (.char c, s)
  | .take => s.take.map fun (c, s) => (.char c, s)
  | .tell => some (.position s.tell, s)
  | .putBegin => some (.position s.putBegin.1, s.putBegin.2)
  | .put c => (s.put c).map fun s => (.done, s)
  | .putEnd begin => some (.position (s.putEnd begin), s)

/-- Whatever is asked of it and in whatever order, the stream stays within the buffer. -/
theorem perform_isSome (s : SizedBufferStream) (op : Op UInt8) : (s.perform op).isSome = true := by
  cases op with
  | peek => by_cases h : s.readPos < s.payload.length <;> simp [perform, peek, load, size, h]
  | take => by_cases h : s.readPos < s.payload.length <;> simp [perform, take, load, size, h]
  | tell => rfl
  | putBegin => rfl
  | put c => by_cases h : s.writePos < s.payload.length <;> simp [perform, put, store, size, h]
  | putEnd begin => rfl

/-! ### The ideal stream -/

structure Refines (r : Ideal UInt8) (s : SizedBufferStream) : Prop where
  length : s.payload.length = r.text.length
  readPos : s.readPos = r.pos
  pos_le : r.pos ≤ r.text.length
  /-- What has not been read is still the text. -/
  ahead : ∀ i, r.pos ≤ i → s.payload[i]? = r.text[i]?
  pos : r.pos = r.start + r.taken
  writePos : s.writePos = r.start + r.opened.length
  opened_le : r.opened.length ≤ r.taken
  opened : slice s.payload r.start r.opened.length = r.opened
  completed : ∀ b text, (b, text) ∈ r.completed → b + text.length ≤ s.writePos ∧ slice s.payload b text.length = text

theorem refines_make (payload : Bytes) : Refines (Ideal.make payload) (make payload) := by
  refine ⟨rfl, rfl, Nat.zero_le _, fun _ _ => rfl, rfl, rfl, Nat.le_refl _, InSitu.slice_zero, ?_⟩
  intro b text h
  cases h

theorem Refines.writePos_le {r : Ideal UInt8} {s : SizedBufferStream} (h : Refines r s) : s.writePos ≤ s.readPos := by
  have hw := h.writePos
  have hr := h.readPos
  have hp := h.pos
  have ho := h.opened_le
  omega

theorem Refines.load {r : Ideal UInt8} {s : SizedBufferStream} (h : Refines r s) : s.payload[s.readPos]? = r.text[r.pos]? := by
  rw [h.readPos]
  exact h.ahead _ (Nat.le_refl _)

theorem Refines.peek {r : Ideal UInt8} {s : SizedBufferStream} (h : Refines r s) :
    s.peek = some (r.text[r.pos]?.getD 0) := by
  unfold SizedBufferStream.peek SizedBufferStream.load size
  rw [h.load]
  split
  · have hlt : r.pos < r.text.length := by rw [← h.readPos, ← h.length]; assumption
    simp [hlt]
  · have hge : r.text.length ≤ r.pos := by rw [← h.readPos, ← h.length]; omega
    rw [List.getElem?_eq_none hge]
    rfl

theorem Refines.put {r : Ideal UInt8} {s : SizedBufferStream} (h : Refines r s) (c : UInt8)
    (hroom : r.opened.length + 1 ≤ r.taken) :
    ∃ s', s.put c = some s' ∧ Refines { r with opened := r.opened ++ [c] } s' := by
  have hw := h.writePos
  have hp := h.pos
  have hlt : s.writePos < s.payload.length := by
    have := h.pos_le
    have := h.length
    omega
  refine ⟨{ s with payload := s.payload.set s.writePos c, writePos := s.writePos + 1 }, ?_, ?_⟩
  · simp [SizedBufferStream.put, store, size, hlt]
  · refine ⟨?_, h.readPos, h.pos_le, ?_, hp, ?_, ?_, ?_, ?_⟩
    · simpa using h.length
    · intro i hi
      have hbehind : s.writePos ≠ i := by
        have : r.pos ≤ i := hi
        omega
      show (s.payload.set s.writePos c)[i]? = _
      rw [List.getElem?_set_ne hbehind]
      exact h.ahead i hi
    · show s.writePos + 1 = r.start + (r.opened ++ [c]).length
      rw [List.length_append, List.length_singleton]
      omega
    · rw [List.length_append, List.length_singleton]
      exact hroom
    · show slice (s.payload.set s.writePos c) r.start (r.opened ++ [c]).length = r.opened ++ [c]
      rw [List.length_append, List.length_singleton, InSitu.slice_set_end hw.symm hlt, h.opened]
    · intro b text hmem
      obtain ⟨hend, htext⟩ := h.completed b text hmem
      refine ⟨Nat.le_succ_of_le hend, ?_⟩
      show slice (s.payload.set s.writePos c) b text.length = text
      rw [InSitu.slice_set hend, htext]

/-- As long as the discipline is followed, the stream answers like the ideal one. -/
theorem simulates : Sessions.Simulates (Ideal.perform 0) perform Refines := by
  intro r s op answer r' h hop
  cases op with
  | peek =>
    cases hop
    exact ⟨s, by rw [perform, h.peek]; rfl, h⟩
  | take =>
    simp only [Ideal.perform] at hop
    cases hc : r.text[r.pos]? with
    | none =>
      rw [hc] at hop
      cases hop
      have hge : ¬ s.readPos < s.size := by
        have hnone := List.getElem?_eq_none_iff.1 hc
        rw [h.readPos, size, h.length]
        omega
      exact ⟨s, by simp [perform, SizedBufferStream.take, hge], h⟩
    | some c =>
      rw [hc] at hop
      cases hop
      obtain ⟨hlt, -⟩ := List.getElem?_eq_some_iff.1 hc
      have hin : s.readPos < s.size := by rw [h.readPos, size, h.length]; exact hlt
      refine ⟨{ s with readPos := s.readPos + 1 }, ?_, ?_⟩
      · simp [perform, SizedBufferStream.take, hin, SizedBufferStream.load, h.load, hc]
      · refine ⟨h.length, congrArg (· + 1) h.readPos, hlt, ?_, ?_, h.writePos, ?_, h.opened, h.completed⟩
        · intro i hi
          exact h.ahead i (Nat.le_of_succ_le hi)
        · show r.pos + 1 = r.start + (r.taken + 1)
          rw [h.pos]
          rfl
        · exact Nat.le_succ_of_le h.opened_le
  | tell =>
    cases hop
    exact ⟨s, by rw [perform, tell, h.readPos], h⟩
  | putBegin =>
    cases hop
    refine ⟨s.putBegin.2, by rw [perform, putBegin, h.readPos], ?_⟩
    refine ⟨h.length, h.readPos, h.pos_le, h.ahead, rfl, h.readPos, Nat.le_refl _, InSitu.slice_zero, ?_⟩
    intro b text hmem
    obtain ⟨hend, htext⟩ := h.completed b text hmem
    exact ⟨hend.trans h.writePos_le, htext⟩
  | put c =>
    simp only [Ideal.perform] at hop
    split at hop
    · cases hop
      obtain ⟨s', hput, hr⟩ := h.put c ‹_›
      exact ⟨s', by rw [perform, hput]; rfl, hr⟩
    · cases hop
  | putEnd begin =>
    simp only [Ideal.perform] at hop
    split at hop
    · cases hop
      have hstart : r.start = begin := by rw [Ideal.start, ‹r.begin = some begin›]; rfl
      have hcount : s.putEnd begin = r.opened.length := by
        rw [putEnd, h.writePos, hstart, Nat.add_sub_cancel_left]
      refine ⟨s, by rw [perform, hcount], ?_⟩
      refine ⟨h.length, h.readPos, h.pos_le, h.ahead, h.pos, h.writePos, h.opened_le, h.opened, ?_⟩
      intro b text hmem
      rcases List.mem_append.1 hmem with hmem | hmem
      · exact h.completed b text hmem
      · obtain ⟨rfl, rfl⟩ := Prod.mk.inj (List.mem_singleton.1 hmem)
        rw [← hstart]
        exact ⟨by rw [h.writePos], h.opened⟩
    · cases hop

/-- Whatever the buffer and the operations, as long as they follow the in-situ discipline: no access
leaves the buffer, every answer is the one of the ideal stream over the bytes the buffer had at the
start, nothing is written past the read position, and every finished string is where it was put. -/
theorem sized_buffer_stream_sound (payload : Bytes) (ops : List (Op UInt8)) (answers : List (Answer UInt8))
    (r : Ideal UInt8) (h : Sessions.performs (Ideal.perform 0) (Ideal.make payload) ops = some (answers, r)) :
    ∃ s, Sessions.performs perform (make payload) ops = some (answers, s) ∧ s.writePos ≤ s.readPos ∧
      ∀ b text, (b, text) ∈ r.completed → slice s.payload b text.length = text := by
  obtain ⟨s, hs, hr⟩ := Sessions.performs_simulation simulates (refines_make payload) h
  exact ⟨s, hs, hr.writePos_le, fun b text hmem => (hr.completed b text hmem).2⟩

/-- A string with an escaped line feed at the very end of the buffer: four characters are put for the
five taken, the terminator the last one of them. -/
theorem sized_buffer_stream_sound_at_end :
    ∃ s, Sessions.performs perform (make (lit "\"a\\nb\""))
        [.take, .putBegin, .take, .put 97, .take, .take, .put 10, .take, .put 98, .take, .put 0, .putEnd 1] =
      some ([.char 34, .position 1, .char 97, .done, .char 92, .char 110, .done, .char 98, .done, .char 34, .done,
        .position 4], s) ∧ slice s.payload 1 4 = [97, 10, 98, 0] := by
  obtain ⟨s, hs, -, hstrings⟩ := sized_buffer_stream_sound (lit "\"a\\nb\"")
    [.take, .putBegin, .take, .put 97, .take, .take, .put 10, .take, .put 98, .take, .put 0, .putEnd 1] _ _ rfl
  exact ⟨s, hs, hstrings 1 [97, 10, 98, 0] (List.mem_singleton.2 rfl)⟩

end SizedBufferStream
end EventsCounter
