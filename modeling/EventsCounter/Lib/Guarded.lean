import Mathlib

/-!
# Data guarded by a mutex

Threads share a value and a mutex. A thread takes the mutex, performs the pieces of its critical
section one at a time, on the value and on registers of its own, and releases the mutex. Nothing but
the mutex keeps the pieces of two threads apart: a piece does not look at who holds it.

`settled` is the value as it is going to be once the holder is out. It only ever changes when the
mutex is taken, and then by the whole section at once (`settled_lock`, `settled_piece`,
`settled_unlock`). So the sections of any interleaving are atomic, in the order the mutex is taken.
-/

namespace Guarded

variable {ι σ ρ : Type*}

abbrev Section (σ ρ : Type*) := List (σ × ρ → σ × ρ)

def Section.effect (c : Section σ ρ) (x : σ × ρ) : σ × ρ := c.foldl (fun x piece => piece x) x

inductive Phase (σ ρ : Type*)
  | outside (registers : ρ)
  | inside (rest : Section σ ρ) (registers : ρ)

structure State (ι σ ρ : Type*) where
  value : σ
  holder : Option ι
  phase : ι → Phase σ ρ

namespace State

section
variable [DecidableEq ι]

def lock (s : State ι σ ρ) (i : ι) (c : Section σ ρ) (registers : ρ) : Option (State ι σ ρ) :=
  match s.holder, s.phase i with
  | none, .outside _ => some { s with holder := some i, phase := Function.update s.phase i (.inside c registers) }
  | _, _ => none

def piece (s : State ι σ ρ) (i : ι) : Option (State ι σ ρ) :=
  match s.phase i with
  | .inside (piece :: rest) registers =>
    let (value, registers) := piece (s.value, registers)
    some { s with value, phase := Function.update s.phase i (.inside rest registers) }
  | _ => none

def unlock (s : State ι σ ρ) (i : ι) : Option (State ι σ ρ) :=
  match s.phase i with
  | .inside [] registers => some { s with holder := none, phase := Function.update s.phase i (.outside registers) }
  | _ => none

end

def Inside (s : State ι σ ρ) (i : ι) : Prop := ∃ rest registers, s.phase i = .inside rest registers

/-- The thread in its critical section is the one that holds the mutex. -/
def Exclusive (s : State ι σ ρ) : Prop := ∀ i, s.Inside i ↔ s.holder = some i

/-- The value and the registers once the thread is out of its section. -/
def outcome (s : State ι σ ρ) (i : ι) : σ × ρ :=
  match s.phase i with
  | .outside registers => (s.value, registers)
  | .inside rest registers => rest.effect (s.value, registers)

def settled (s : State ι σ ρ) : σ :=
  match s.holder with
  | none => s.value
  | some i => (s.outcome i).1

variable {s s' : State ι σ ρ} {i j : ι} {c rest : Section σ ρ} {registers : ρ}

theorem Exclusive.eq (hs : s.Exclusive) (hi : s.Inside i) (hj : s.Inside j) : i = j := by
  rw [hs] at hi hj
  exact Option.some.inj (hi.symm.trans hj)

theorem settled_of_holder_none (h : s.holder = none) : s.settled = s.value := by simp [settled, h]

theorem settled_of_holder (h : s.holder = some i) : s.settled = (s.outcome i).1 := by simp [settled, h]

/-! ### What a step can do -/

section
variable [DecidableEq ι]

theorem lock_cases (h : s.lock i c registers = some s') : s.holder = none ∧ (∃ r, s.phase i = .outside r) ∧
    s' = { s with holder := some i, phase := Function.update s.phase i (.inside c registers) } := by
  unfold lock at h
  split at h
  · cases h
    exact ⟨‹_›, ⟨_, ‹_›⟩, rfl⟩
  · cases h

theorem piece_cases (h : s.piece i = some s') : ∃ p rest registers, s.phase i = .inside (p :: rest) registers ∧
    s' = { s with value := (p (s.value, registers)).1
                  phase := Function.update s.phase i (.inside rest (p (s.value, registers)).2) } := by
  unfold piece at h
  split at h
  · cases h
    exact ⟨_, _, _, ‹_›, rfl⟩
  · cases h

theorem unlock_cases (h : s.unlock i = some s') : ∃ registers, s.phase i = .inside [] registers ∧
    s' = { s with holder := none, phase := Function.update s.phase i (.outside registers) } := by
  unfold unlock at h
  split at h
  · cases h
    exact ⟨_, ‹_›, rfl⟩
  · cases h

theorem exists_piece {p : σ × ρ → σ × ρ} (h : s.phase i = .inside (p :: rest) registers) :
    ∃ s', s.piece i = some s' ∧ (∃ r, s'.phase i = .inside rest r) ∧ ∀ j, j ≠ i → s'.phase j = s.phase j := by
  refine ⟨_, by simp only [piece, h]; rfl, ⟨_, Function.update_self _ _ _⟩, fun j hj => ?_⟩
  exact Function.update_of_ne hj _ _

theorem exists_unlock (h : s.phase i = .inside [] registers) : s.piece i = none ∧
    ∃ s', s.unlock i = some s' ∧ s'.holder = none ∧ ∀ j, j ≠ i → s'.phase j = s.phase j := by
  refine ⟨by simp only [piece, h], _, by simp only [unlock, h]; rfl, rfl, fun j hj => ?_⟩
  exact Function.update_of_ne hj _ _

/-- A thread in its section performs its next piece, or leaves. -/
theorem exists_step_inside (h : s.Inside i) : (∃ s', s.piece i = some s') ∨ ∃ s', s.unlock i = some s' := by
  obtain ⟨rest, registers, hphase⟩ := h
  cases rest with
  | nil =>
    obtain ⟨-, s', hunlock, -⟩ := exists_unlock hphase
    exact .inr ⟨s', hunlock⟩
  | cons p rest =>
    obtain ⟨s', hpiece, -⟩ := exists_piece hphase
    exact .inl ⟨s', hpiece⟩

theorem exists_lock (hholder : s.holder = none) (hexcl : s.Exclusive) (i : ι) (c : Section σ ρ) (registers : ρ) :
    ∃ s', s.lock i c registers = some s' := by
  cases hphase : s.phase i with
  | outside r => simp [lock, hholder, hphase]
  | inside rest r =>
    have hin := (hexcl i).1 ⟨rest, r, hphase⟩
    rw [hholder] at hin
    cases hin

/-! ### Mutual exclusion -/

theorem inside_update {holder : Option ι} {value : σ} {p : Phase σ ρ} :
    Inside ⟨value, holder, Function.update s.phase i p⟩ j ↔
      if j = i then ∃ rest registers, p = .inside rest registers else s.Inside j := by
  unfold Inside
  split
  · subst j
    simp
  · simp [Function.update_of_ne ‹_›]

theorem Exclusive.lock (hs : s.Exclusive) (h : s.lock i c registers = some s') : s'.Exclusive := by
  obtain ⟨hholder, -, rfl⟩ := lock_cases h
  intro j
  rw [inside_update]
  by_cases hj : j = i
  · simp [hj]
  · have hout := hs j
    rw [hholder] at hout
    simpa [hj, Ne.symm hj] using hout

theorem Exclusive.piece (hs : s.Exclusive) (h : s.piece i = some s') : s'.Exclusive := by
  obtain ⟨p, rest, r, hphase, rfl⟩ := piece_cases h
  intro j
  rw [inside_update]
  by_cases hj : j = i
  · subst j
    simpa using (hs i).1 ⟨_, _, hphase⟩
  · simpa [hj] using hs j

theorem Exclusive.unlock (hs : s.Exclusive) (h : s.unlock i = some s') : s'.Exclusive := by
  obtain ⟨r, hphase, rfl⟩ := unlock_cases h
  have hholder := (hs i).1 ⟨_, _, hphase⟩
  intro j
  rw [inside_update]
  by_cases hj : j = i
  · simp [hj]
  · -- nobody else was inside
    have hout := hs j
    rw [hholder, Option.some.injEq] at hout
    simp [hj, hout, Ne.symm hj]

/-! ### Atomicity -/

/-- The section takes effect as a whole when the mutex is taken. -/
theorem settled_lock (h : s.lock i c registers = some s') :
    s'.settled = (c.effect (s.settled, registers)).1 ∧ s'.outcome i = c.effect (s.settled, registers) := by
  obtain ⟨hholder, -, rfl⟩ := lock_cases h
  simp [settled, hholder, outcome]

theorem settled_piece (hs : s.Exclusive) (h : s.piece i = some s') :
    s'.settled = s.settled ∧ s'.outcome i = s.outcome i := by
  obtain ⟨p, rest, r, hphase, rfl⟩ := piece_cases h
  have hholder := (hs i).1 ⟨_, _, hphase⟩
  have houtcome : outcome { s with value := (p (s.value, r)).1
                                   phase := Function.update s.phase i (.inside rest (p (s.value, r)).2) } i =
      s.outcome i := by
    simp [outcome, hphase, Section.effect]
  refine ⟨?_, houtcome⟩
  rw [settled_of_holder hholder, ← houtcome]
  exact settled_of_holder hholder

theorem settled_unlock (hs : s.Exclusive) (h : s.unlock i = some s') :
    s'.settled = s.settled ∧ s'.outcome i = s.outcome i := by
  obtain ⟨r, hphase, rfl⟩ := unlock_cases h
  have hholder := (hs i).1 ⟨_, _, hphase⟩
  simp [settled, hholder, outcome, hphase, Section.effect]

end

end State
end Guarded
