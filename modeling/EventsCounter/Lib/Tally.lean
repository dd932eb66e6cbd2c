import Mathlib

/-!
# Tallies

`tally key amount k xs` adds up the amounts of the entries of `xs` filed under the key `k`. A ledger
is such a list; every question about how much of `k` is where is a tally of some ledger. A finite
ordered map is the ledger with one entry a key, and its tally is its lookup (`tally_toList`).
-/

namespace Tally

variable {α κ : Type*} [DecidableEq κ] {key : α → κ} {amount : α → ℕ} {k : κ} {x : α} {xs ys : List α}

def tally (key : α → κ) (amount : α → ℕ) (k : κ) (xs : List α) : ℕ :=
  (xs.map fun x => if key x = k then amount x else 0).sum

@[simp] theorem tally_nil : tally key amount k [] = 0 := rfl

@[simp] theorem tally_cons :
    tally key amount k (x :: xs) = (if key x = k then amount x else 0) + tally key amount k xs := by
  simp [tally]

@[simp] theorem tally_append :
    tally key amount k (xs ++ ys) = tally key amount k xs + tally key amount k ys := by
  simp [tally]

theorem tally_perm (h : xs.Perm ys) : tally key amount k xs = tally key amount k ys :=
  (h.map _).sum_eq

theorem tally_sublist_le (h : xs.Sublist ys) : tally key amount k xs ≤ tally key amount k ys := by
  induction h with
  | slnil => exact le_refl _
  | cons y _ ih =>
    rw [tally_cons]
    exact ih.trans (Nat.le_add_left _ _)
  | cons_cons y _ ih =>
    rw [tally_cons, tally_cons]
    exact Nat.add_le_add_left ih _

theorem tally_subperm_le (h : xs.Subperm ys) : tally key amount k xs ≤ tally key amount k ys := by
  obtain ⟨zs, hperm, hsub⟩ := h
  rw [← tally_perm hperm]
  exact tally_sublist_le hsub

theorem tally_map {β : Type*} (f : β → α) (zs : List β) :
    tally key amount k (zs.map f) = tally (fun z => key (f z)) (fun z => amount (f z)) k zs := by
  simp [tally, Function.comp_def]

theorem tally_congr {key' : α → κ} {amount' : α → ℕ}
    (h : ∀ x ∈ xs, key x = key' x ∧ amount x = amount' x) :
    tally key amount k xs = tally key' amount' k xs := by
  unfold tally
  congr 1
  apply List.map_congr_left
  intro x hx
  rw [(h x hx).1, (h x hx).2]

/-- Only the entries filed under `k` matter. -/
theorem tally_congr_amount {amount' : α → ℕ} (h : ∀ x ∈ xs, key x = k → amount x = amount' x) :
    tally key amount k xs = tally key amount' k xs := by
  unfold tally
  congr 1
  refine List.map_congr_left fun x hx => ?_
  by_cases hk : key x = k
  · rw [if_pos hk, if_pos hk, h x hx hk]
  · rw [if_neg hk, if_neg hk]

theorem tally_eq_sum_filter : tally key amount k xs = ((xs.filter fun x => key x = k).map amount).sum := by
  induction xs with
  | nil => rfl
  | cons y ys ih => by_cases hy : key y = k <;> simp [hy, ih]

theorem tally_eraseIdx {i : ℕ} (h : xs[i]? = some x) :
    tally key amount k xs = (if key x = k then amount x else 0) + tally key amount k (xs.eraseIdx i) := by
  obtain ⟨hi, rfl⟩ := List.getElem?_eq_some_iff.1 h
  rw [tally_perm (List.getElem_cons_eraseIdx_perm hi).symm, tally_cons]

theorem tally_eq_zero (h : ∀ x ∈ xs, key x = k → amount x = 0) : tally key amount k xs = 0 := by
  induction xs with
  | nil => rfl
  | cons y ys ih =>
    rw [tally_cons, ih fun x hx => h x (List.mem_cons_of_mem _ hx)]
    split
    · exact h y List.mem_cons_self ‹_›
    · rfl

theorem exists_of_tally_pos (h : 0 < tally key amount k xs) : ∃ x ∈ xs, key x = k := by
  by_contra hnone
  push Not at hnone
  rw [tally_eq_zero fun x hx hk => absurd hk (hnone x hx)] at h
  exact absurd h (lt_irrefl 0)

theorem tally_of_notMem (h : k ∉ xs.map key) : tally key amount k xs = 0 :=
  tally_eq_zero fun x hx hk => absurd (List.mem_map.2 ⟨x, hx, hk⟩) h

theorem tally_filter_add (p : α → Bool) :
    tally key amount k (xs.filter p) + tally key amount k (xs.filter fun x => !p x) =
      tally key amount k xs := by
  induction xs with
  | nil => rfl
  | cons y ys ih =>
    cases hp : p y <;> simp [hp] <;> omega

theorem le_tally (key : α → κ) (amount : α → ℕ) (h : x ∈ xs) : amount x ≤ tally key amount (key x) xs := by
  induction xs with
  | nil => cases h
  | cons y ys ih =>
    rw [tally_cons]
    rcases List.mem_cons.1 h with rfl | h
    · simp
    · exact Nat.le_trans (ih h) (Nat.le_add_left _ _)

/-- With at most one entry a key, the tally of a key that is present is the amount of its entry. -/
theorem tally_of_nodup (hnd : (xs.map key).Nodup) (h : x ∈ xs) :
    tally key amount (key x) xs = amount x := by
  induction xs with
  | nil => cases h
  | cons y ys ih =>
    obtain ⟨hy, hnd⟩ := List.nodup_cons.1 hnd
    rw [tally_cons]
    rcases List.mem_cons.1 h with rfl | h
    · rw [if_pos rfl, tally_of_notMem hy, Nat.add_zero]
    · rw [if_neg, ih hnd h, Nat.zero_add]
      exact fun hk => hy (hk ▸ List.mem_map_of_mem h)

end Tally

namespace Tally

variable {κ β : Type*} [Ord κ] [Std.TransOrd κ] [Std.LawfulEqOrd κ] {k : κ}

theorem nodup_fst_toList (m : Std.ExtTreeMap κ β) : (m.toList.map Prod.fst).Nodup := by
  rw [List.Nodup, List.pairwise_map]
  refine m.distinct_keys_toList.imp fun {a b} h hab => h ?_
  rw [hab]
  exact Std.ReflOrd.compare_self

theorem mem_fst_toList (m : Std.ExtTreeMap κ β) : k ∈ m.toList.map Prod.fst ↔ k ∈ m := by
  rw [Std.ExtTreeMap.map_fst_toList_eq_keys, Std.ExtTreeMap.mem_keys]

/-- The tally of a map's entries is its lookup. -/
theorem tally_toList [DecidableEq κ] (m : Std.ExtTreeMap κ β) (f : β → ℕ) :
    tally Prod.fst (fun e => f e.2) k m.toList = (m[k]?.map f).getD 0 := by
  cases h : m[k]? with
  | none =>
    refine tally_of_notMem ?_
    rw [mem_fst_toList, Std.ExtTreeMap.mem_iff_isSome_getElem?, h]
    exact Bool.false_ne_true
  | some v =>
    have hmem : (k, v) ∈ m.toList := Std.ExtTreeMap.mem_toList_iff_getElem?_eq_some.2 h
    exact tally_of_nodup (nodup_fst_toList m) hmem

end Tally
