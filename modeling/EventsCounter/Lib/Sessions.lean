import Mathlib

/-!
# Sessions with a machine that answers

A machine answers operations: `perform s op` is the answer and the next state, `none` where the
machine may not be asked. A session is a list of operations performed in turn. A client chooses every
operation from the answers to the ones before, and at some point stops with a result: all it knows of
the machine is what the machine has answered.

A relation between the states of two machines that every operation of the first one keeps, with the
same answer, carries over to sessions and to clients (`performs_simulation`, `plays_simulation`): no
client can tell the second machine from the first.
-/

namespace Sessions

variable {σ τ ω α β : Type*} {perform : σ → ω → Option (α × σ)} {perform' : τ → ω → Option (α × τ)}
  {R : σ → τ → Prop} {s s' : σ} {t : τ} {ops : List ω} {answers : List α}

def performs (perform : σ → ω → Option (α × σ)) (s : σ) : List ω → Option (List α × σ)
  | [] => some ([], s)
  | op :: ops => do
    let (answer, s) ← perform s op
    let (answers, s) ← performs perform s ops
    some (answer :: answers, s)

/-- The next operation, or the result, given all answers so far. -/
abbrev Client (ω α β : Type*) := List α → ω ⊕ β

def play (perform : σ → ω → Option (α × σ)) (client : Client ω α β) : ℕ → σ → List α → Option (β × σ)
  | 0, _, _ => none
  | fuel + 1, s, answers =>
    match client answers with
    | .inl op => (perform s op).bind fun (answer, s) => play perform client fuel s (answers ++ [answer])
    | .inr result => some (result, s)

/-- The client stops with `result` and leaves the machine in `s'`. -/
def Plays (perform : σ → ω → Option (α × σ)) (client : Client ω α β) (s : σ) (result : β) (s' : σ) : Prop :=
  ∃ fuel, play perform client fuel s [] = some (result, s')

/-! ### One client, one result -/

theorem play_add {client : Client ω α β} {fuel : ℕ} {r : β × σ} (more : ℕ)
    (h : play perform client fuel s answers = some r) : play perform client (fuel + more) s answers = some r := by
  induction fuel generalizing s answers with
  | zero => cases h
  | succ fuel ih =>
    rw [Nat.add_right_comm]
    unfold play at h ⊢
    cases hc : client answers with
    | inr result =>
      rw [hc] at h
      exact h
    | inl op =>
      rw [hc] at h
      obtain ⟨⟨answer, u⟩, hu, hplay⟩ := Option.bind_eq_some_iff.1 h
      exact Option.bind_eq_some_iff.2 ⟨(answer, u), hu, ih hplay⟩

theorem Plays.unique {client : Client ω α β} {result result' : β} {u u' : σ}
    (h : Plays perform client s result u) (h' : Plays perform client s result' u') : result = result' ∧ u = u' := by
  obtain ⟨fuel, h⟩ := h
  obtain ⟨fuel', h'⟩ := h'
  have hmore := play_add fuel' h
  have hmore' := play_add fuel h'
  rw [Nat.add_comm] at hmore'
  exact Prod.mk.inj (Option.some.inj (hmore.symm.trans hmore'))

/-! ### Scripts -/

/-- The client that performs `ops` whatever it is answered, and then stops with `result`. -/
def script (ops : List ω) (result : β) : Client ω α β := fun answers =>
  match ops[answers.length]? with
  | some op => .inl op
  | none => .inr result

theorem play_script {result : β} (before : List ω) (hanswers : answers.length = before.length) {later : List α}
    (h : performs perform s ops = some (later, s')) :
    play perform (script (before ++ ops) result) (ops.length + 1) s answers = some (result, s') := by
  induction ops generalizing s before answers later with
  | nil =>
    cases h
    simp [play, script, hanswers]
  | cons op ops ih =>
    obtain ⟨⟨answer, u⟩, hu, hrest⟩ := Option.bind_eq_some_iff.1 h
    obtain ⟨⟨later, v⟩, hv, heq⟩ := Option.bind_eq_some_iff.1 hrest
    cases heq
    have hlen : (answers ++ [answer]).length = (before ++ [op]).length := by simp [hanswers]
    have hnext := ih (before ++ [op]) hlen hv
    rw [List.append_assoc, List.singleton_append] at hnext
    rw [List.length_cons, play]
    simpa [script, hanswers, hu] using hnext

theorem plays_script {result : β} {later : List α} (h : performs perform s ops = some (later, s')) :
    Plays perform (script ops result) s result s' :=
  ⟨ops.length + 1, play_script [] rfl h⟩

/-! ### Simulations -/

/-- `perform'` answers like `perform`, and the states stay related. -/
def Simulates (perform : σ → ω → Option (α × σ)) (perform' : τ → ω → Option (α × τ)) (R : σ → τ → Prop) : Prop :=
  ∀ s t op answer s', R s t → perform s op = some (answer, s') → ∃ t', perform' t op = some (answer, t') ∧ R s' t'

theorem performs_simulation (sim : Simulates perform perform' R) (hR : R s t)
    (h : performs perform s ops = some (answers, s')) :
    ∃ t', performs perform' t ops = some (answers, t') ∧ R s' t' := by
  induction ops generalizing s t answers with
  | nil =>
    cases h
    exact ⟨t, rfl, hR⟩
  | cons op ops ih =>
    obtain ⟨⟨answer, u⟩, hu, hrest⟩ := Option.bind_eq_some_iff.1 h
    obtain ⟨⟨later, v⟩, hv, heq⟩ := Option.bind_eq_some_iff.1 hrest
    cases heq
    obtain ⟨u', hu', hRu⟩ := sim s t op answer u hR hu
    obtain ⟨v', hv', hRv⟩ := ih hRu hv
    exact ⟨v', by simp [performs, hu', hv'], hRv⟩

theorem play_simulation (sim : Simulates perform perform' R) {client : Client ω α β} {fuel : ℕ} {result : β}
    (hR : R s t) (h : play perform client fuel s answers = some (result, s')) :
    ∃ t', play perform' client fuel t answers = some (result, t') ∧ R s' t' := by
  induction fuel generalizing s t answers with
  | zero => cases h
  | succ fuel ih =>
    unfold play at h ⊢
    cases hc : client answers with
    | inr later =>
      rw [hc] at h
      cases h
      exact ⟨t, rfl, hR⟩
    | inl op =>
      rw [hc] at h
      obtain ⟨⟨answer, u⟩, hu, hplay⟩ := Option.bind_eq_some_iff.1 h
      obtain ⟨u', hu', hRu⟩ := sim s t op answer u hR hu
      obtain ⟨t', hplay', hR'⟩ := ih hRu hplay
      exact ⟨t', Option.bind_eq_some_iff.2 ⟨(answer, u'), hu', hplay'⟩, hR'⟩

theorem plays_simulation (sim : Simulates perform perform' R) {client : Client ω α β} {result : β}
    (hR : R s t) (h : Plays perform client s result s') : ∃ t', Plays perform' client t result t' ∧ R s' t' := by
  obtain ⟨fuel, h⟩ := h
  obtain ⟨t', ht', hR'⟩ := play_simulation sim hR h
  exact ⟨t', ⟨fuel, ht'⟩, hR'⟩

end Sessions
