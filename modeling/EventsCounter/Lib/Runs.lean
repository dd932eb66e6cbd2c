import Mathlib

/-!
# Runs of a partial step function

A system is a step function `step : σ → ι → Option σ`. A label `l : ι` says which party moves and
carries everything its environment answers, so a step is a function of state and label; `none` means
that `l` is not enabled. An interleaving is a list of labels, and `run` performs it.

`run_induction` ties a property of the state to the labels performed so far, `run_invariant` is the
case of a property of the state alone, and `run_simulation` transports runs along a relation whose
steps are matched by runs of a second system.
-/

namespace Runs

variable {σ ι τ κ : Type*} {step : σ → ι → Option σ} {s s' : σ} {ls : List ι}

/-- The state after the labels `ls`, when all of them are enabled in turn. -/
def run (step : σ → ι → Option σ) (s : σ) (ls : List ι) : Option σ := ls.foldlM step s

@[simp] theorem run_nil : run step s [] = some s := rfl

@[simp] theorem run_cons (l : ι) : run step s (l :: ls) = (step s l).bind fun t => run step t ls := rfl

theorem run_append (ls' : List ι) :
    run step s (ls ++ ls') = (run step s ls).bind fun t => run step t ls' := by
  simp [run, List.foldlM_append]

theorem run_snoc_iff (l : ι) :
    run step s (ls ++ [l]) = some s' ↔ ∃ t, run step s ls = some t ∧ step t l = some s' := by
  rw [run_append, Option.bind_eq_some_iff]
  simp

/-- A property of the labels performed and the state they lead to holds of every run, when it holds
of the empty run and every step keeps it. -/
theorem run_induction {P : List ι → σ → Prop} (start : P [] s)
    (keep : ∀ ls t l t', P ls t → step t l = some t' → P (ls ++ [l]) t')
    (h : run step s ls = some s') : P ls s' := by
  induction ls using List.reverseRecOn generalizing s' with
  | nil => cases h; exact start
  | append_singleton ls l ih =>
    obtain ⟨t, ht, hl⟩ := (run_snoc_iff l).1 h
    exact keep ls t l s' (ih ht) hl

theorem run_invariant {I : σ → Prop} (start : I s) (keep : ∀ t l t', I t → step t l = some t' → I t')
    (h : run step s ls = some s') : I s' :=
  run_induction (P := fun _ t => I t) start (fun _ t l t' => keep t l t') h

/-- When every step of the first system is matched by a run of the second one from each related
state, so is every run; `match` names the labels of the matching run. -/
theorem run_simulation {step' : τ → κ → Option τ} {R : σ → τ → Prop} {matching : σ → ι → List κ}
    (sim : ∀ s t l s', R s t → step s l = some s' →
      ∃ t', run step' t (matching s l) = some t' ∧ R s' t')
    {t : τ} (hR : R s t) (h : run step s ls = some s') :
    ∃ ks t', run step' t ks = some t' ∧ R s' t' := by
  refine run_induction (P := fun _ s' => ∃ ks t', run step' t ks = some t' ∧ R s' t')
    ⟨[], t, rfl, hR⟩ ?_ h
  rintro _ u l u' ⟨ks, t', hks, hRt⟩ hl
  obtain ⟨t'', hrun, hR'⟩ := sim u t' l u' hRt hl
  exact ⟨ks ++ matching u l, t'', by rw [run_append, hks]; exact hrun, hR'⟩

end Runs
