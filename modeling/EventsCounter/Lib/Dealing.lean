import Mathlib

/-!
# Amounts dealt out to several counters

A list of amounts is dealt out to counters, one after the other; every counter keeps the sum of what
it has got, modulo `M`. `Hideable M l` says that there is a way to deal them out, in some order, at
which no counter ever shows more than `l`. As long as the whole sum is below `M` that is a matter of
the single amounts (`hideable_iff_of_sum_lt`); above, a counter can be made to wrap around.
-/

namespace Dealing

variable {α β : Type*} {M l v : ℕ} {vs amounts : List ℕ}

/-- A counter that gets the amounts `vs` in this order never shows more than `l`. -/
def StaysWithin (M l : ℕ) (vs : List ℕ) : Prop := ∀ p, p <+: vs → p.sum % M ≤ l

/-- What the counter `m` gets, in order. -/
def dealtTo (m : ℕ) (dealt : List (ℕ × ℕ)) : List ℕ := (dealt.filter fun e => e.1 = m).map Prod.snd

def Hideable (M l : ℕ) (amounts : List ℕ) : Prop :=
  ∃ dealt : List (ℕ × ℕ), (dealt.map Prod.snd).Perm amounts ∧ ∀ m, StaysWithin M l (dealtTo m dealt)

theorem staysWithin_nil : StaysWithin M l [] := by
  intro p hp
  rw [List.prefix_nil.1 hp]
  simp

theorem staysWithin_snoc_iff : StaysWithin M l (vs ++ [v]) ↔ StaysWithin M l vs ∧ (vs.sum + v) % M ≤ l := by
  have hsum : (vs ++ [v]).sum = vs.sum + v := by simp
  constructor
  · intro h
    refine ⟨fun p hp => h p (hp.trans (List.prefix_append vs [v])), ?_⟩
    rw [← hsum]
    exact h _ List.prefix_rfl
  · rintro ⟨h, hlast⟩ p hp
    rcases List.prefix_concat_iff.1 hp with rfl | hp
    · rw [hsum]
      exact hlast
    · exact h p hp

theorem not_staysWithin_snoc_iff :
    ¬ StaysWithin M l (vs ++ [v]) ↔ ¬ StaysWithin M l vs ∨ l < (vs.sum + v) % M := by
  rw [staysWithin_snoc_iff, not_and_or, Nat.not_le]

theorem staysWithin_of_sum_le (h : vs.sum ≤ l) : StaysWithin M l vs := by
  rintro p ⟨q, rfl⟩
  rw [List.sum_append] at h
  have := Nat.mod_le p.sum M
  omega

/-- Below `M` the last sum is the largest one. -/
theorem staysWithin_iff_of_sum_lt (hsum : vs.sum < M) : StaysWithin M l vs ↔ vs.sum ≤ l := by
  constructor
  · intro h
    have hle := h vs List.prefix_rfl
    rwa [Nat.mod_eq_of_lt hsum] at hle
  · exact staysWithin_of_sum_le

theorem sum_dealtTo_le (m : ℕ) (dealt : List (ℕ × ℕ)) : (dealtTo m dealt).sum ≤ (dealt.map Prod.snd).sum :=
  (List.filter_sublist.map Prod.snd).sum_le_sum fun _ _ => Nat.zero_le _

/-- Every amount dealt to a counter of its own, the first one to the counter `k`. -/
def own (k : ℕ) (amounts : List ℕ) : List (ℕ × ℕ) := (amounts.zipIdx k).map Prod.swap

theorem dealtTo_own_of_lt {k m : ℕ} (h : m < k) : dealtTo m (own k amounts) = [] := by
  rw [dealtTo, List.map_eq_nil_iff, List.filter_eq_nil_iff]
  intro e he
  obtain ⟨e', he', rfl⟩ := List.mem_map.1 he
  have := List.le_snd_of_mem_zipIdx he'
  simp
  omega

theorem sum_dealtTo_own_le (h : ∀ v ∈ amounts, v ≤ l) (k m : ℕ) : (dealtTo m (own k amounts)).sum ≤ l := by
  induction amounts generalizing k with
  | nil => exact Nat.zero_le _
  | cons v vs ih =>
    have hcons : own k (v :: vs) = (k, v) :: own (k + 1) vs := rfl
    rw [hcons]
    by_cases hk : k = m
    · subst hk
      have hrest : dealtTo k (own (k + 1) vs) = [] := dealtTo_own_of_lt (Nat.lt_succ_self k)
      unfold dealtTo at hrest ⊢
      simpa [hrest] using h v List.mem_cons_self
    · have hsame : dealtTo m ((k, v) :: own (k + 1) vs) = dealtTo m (own (k + 1) vs) := by simp [dealtTo, hk]
      rw [hsame]
      exact ih (fun w hw => h w (List.mem_cons_of_mem v hw)) (k + 1)

/-- As long as no counter can wrap around, all that matters is that no single amount is above `l`:
then every amount can have a counter of its own. -/
theorem hideable_iff_of_sum_lt (hsum : amounts.sum < M) : Hideable M l amounts ↔ ∀ v ∈ amounts, v ≤ l := by
  constructor
  · rintro ⟨dealt, hperm, hwithin⟩ v hv
    obtain ⟨e, he, rfl⟩ := List.mem_map.1 (hperm.mem_iff.2 hv)
    have hmem : e.2 ∈ dealtTo e.1 dealt := List.mem_map_of_mem (List.mem_filter.2 ⟨he, by simp⟩)
    have hle := sum_dealtTo_le e.1 dealt
    rw [hperm.sum_eq] at hle
    have hown := (staysWithin_iff_of_sum_lt (lt_of_le_of_lt hle hsum)).1 (hwithin e.1)
    exact (List.le_sum_of_mem hmem).trans hown
  · intro h
    have hperm : (own 0 amounts).map Prod.snd = amounts := by simp [own, Function.comp_def]
    exact ⟨own 0 amounts, List.Perm.of_eq hperm, fun m => staysWithin_of_sum_le (sum_dealtTo_own_le h 0 m)⟩

/-- With `k` counters, numbered from `0`. -/
def Packs (M l k : ℕ) (amounts : List ℕ) : Prop :=
  ∃ dealt : List (ℕ × ℕ), (dealt.map Prod.snd).Perm amounts ∧ (∀ e ∈ dealt, e.1 < k) ∧
    ∀ m, StaysWithin M l (dealtTo m dealt)

theorem sum_dealtTo_cons (m : ℕ) (e : ℕ × ℕ) (dealt : List (ℕ × ℕ)) :
    (dealtTo m (e :: dealt)).sum = (if e.1 = m then e.2 else 0) + (dealtTo m dealt).sum := by
  unfold dealtTo
  by_cases he : e.1 = m <;> simp [he]

/-- Nothing is lost in the dealing. -/
theorem sum_dealtTo {k : ℕ} {dealt : List (ℕ × ℕ)} (h : ∀ e ∈ dealt, e.1 < k) :
    ∑ m ∈ Finset.range k, (dealtTo m dealt).sum = (dealt.map Prod.snd).sum := by
  induction dealt with
  | nil => simp [dealtTo]
  | cons e dealt ih =>
    have he : e.1 ∈ Finset.range k := Finset.mem_range.2 (h e List.mem_cons_self)
    simp only [sum_dealtTo_cons, Finset.sum_add_distrib, Finset.sum_ite_eq, he, if_true]
    rw [ih fun e he => h e (List.mem_cons_of_mem _ he), List.map_cons, List.sum_cons]

/-- What `k` counters within `l` hold together. -/
theorem sum_le_of_packs {k : ℕ} (hsum : amounts.sum < M) (h : Packs M l k amounts) : amounts.sum ≤ k * l := by
  obtain ⟨dealt, hperm, hk, hwithin⟩ := h
  have heach : ∀ m ∈ Finset.range k, (dealtTo m dealt).sum ≤ l := by
    intro m _
    have hle := sum_dealtTo_le m dealt
    rw [hperm.sum_eq] at hle
    exact (staysWithin_iff_of_sum_lt (lt_of_le_of_lt hle hsum)).1 (hwithin m)
  calc amounts.sum = ∑ m ∈ Finset.range k, (dealtTo m dealt).sum := by rw [sum_dealtTo hk, hperm.sum_eq]
    _ ≤ k * l := by
      have := Finset.sum_le_card_nsmul _ _ _ heach
      rwa [Finset.card_range, smul_eq_mul] at this

/-- A reordering of what the entries show is what some reordering of the entries shows. -/
theorem exists_perm_of_map {f : α → β} {xs : List α} {ys : List β} (h : ys.Perm (xs.map f)) :
    ∃ zs : List α, zs.Perm xs ∧ zs.map f = ys := by
  induction ys generalizing xs with
  | nil =>
    have hxs : xs = [] := List.map_eq_nil_iff.1 h.symm.eq_nil
    exact ⟨[], by rw [hxs], rfl⟩
  | cons y ys ih =>
    obtain ⟨x, hx, rfl⟩ := List.mem_map.1 (h.mem_iff.1 List.mem_cons_self)
    obtain ⟨before, later, rfl⟩ := List.append_of_mem hx
    have hrest : ys.Perm ((before ++ later).map f) := by
      have hmiddle : (f x :: ys).Perm (f x :: (before ++ later).map f) := by
        refine h.trans ?_
        simp
      exact hmiddle.cons_inv
    obtain ⟨zs, hzs, rfl⟩ := ih hrest
    exact ⟨x :: zs, (hzs.cons x).trans List.perm_middle.symm, rfl⟩

/-- What has been dealt out can be anything that shows the amounts dealt out. -/
theorem exists_dealing_of_map {f : α → β} {xs : List α} {dealt : List (ℕ × β)}
    (h : (dealt.map Prod.snd).Perm (xs.map f)) :
    ∃ order : List (ℕ × α), (order.map Prod.snd).Perm xs ∧ order.map (fun e => (e.1, f e.2)) = dealt := by
  obtain ⟨zs, hzs, hmap⟩ := exists_perm_of_map h
  have hlen : (dealt.map Prod.fst).length = zs.length := by
    have := congrArg List.length hmap
    simpa using this.symm
  refine ⟨(dealt.map Prod.fst).zip zs, ?_, ?_⟩
  · rw [List.map_snd_zip hlen.ge]
    exact hzs
  · have hzip : ((dealt.map Prod.fst).zip zs).map (Prod.map id f) = (dealt.map Prod.fst).zip (zs.map f) :=
      List.zip_map_right.symm
    rw [hmap] at hzip
    calc ((dealt.map Prod.fst).zip zs).map (fun e => (e.1, f e.2)) = ((dealt.map Prod.fst).zip zs).map (Prod.map id f) := rfl
      _ = (dealt.map Prod.fst).zip (dealt.map Prod.snd) := hzip
      _ = dealt := (List.zip_of_prod rfl rfl).symm

end Dealing
