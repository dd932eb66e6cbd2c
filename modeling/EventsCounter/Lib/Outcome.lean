import Mathlib

/-!
# Computations that throw or leave the language

A computation ends in a value, in an exception, or in undefined behaviour. What decides between the
three are the demands it makes of its input: a guarded demand is tested and its failure thrown, a
trusted one is not tested. `Performs m ds a` says that `m` makes the demands `ds` in this order and
yields `a` when all of them are met, so that the first demand that fails decides how `m` ends.
-/

inductive Outcome (ε α : Type*)
  | ok (a : α)
  | throw (e : ε)
  | undefined

namespace Outcome

universe u

variable {ε γ : Type*} {α β : Type u}

def isUndefined : Outcome ε α → Bool
  | undefined => true
  | _ => false

def andThen (m : Outcome ε α) (k : α → Outcome ε β) : Outcome ε β :=
  match m with
  | ok a => k a
  | throw e => throw e
  | undefined => undefined

instance : Monad (Outcome ε) where
  pure := ok
  bind := andThen

@[simp] theorem ok_bind (a : α) (k : α → Outcome ε β) : (ok a >>= k) = k a := rfl
@[simp] theorem throw_bind (e : ε) (k : α → Outcome ε β) : (throw e >>= k) = throw e := rfl
@[simp] theorem undefined_bind (k : α → Outcome ε β) : ((undefined : Outcome ε α) >>= k) = undefined := rfl

/-- `try … catch`, the handler deciding which exceptions it takes. -/
def handle (m : Outcome ε α) (handler : ε → Outcome ε α) : Outcome ε α :=
  match m with
  | throw e => handler e
  | m => m

def mapError {ε' : Type*} (f : ε → ε') : Outcome ε α → Outcome ε' α
  | ok a => ok a
  | throw e => throw (f e)
  | undefined => undefined

/-! ### Demands -/

inductive Demand
  | guarded (holds : Bool)
  | trusted (holds : Bool)

inductive Verdict
  | met
  | refused
  | strayed
deriving DecidableEq

def verdict : List Demand → Verdict
  | [] => .met
  | .guarded holds :: ds => if holds then verdict ds else .refused
  | .trusted holds :: ds => if holds then verdict ds else .strayed

def Performs (m : Outcome ε α) (ds : List Demand) (a : α) : Prop :=
  match verdict ds with
  | .met => m = ok a
  | .refused => ∃ e, m = throw e
  | .strayed => m = undefined

variable {m : Outcome ε α} {a : α} {b : β} {ds ds' : List Demand} {holds : Bool}

theorem verdict_guarded_met_iff : verdict (.guarded holds :: ds) = .met ↔ holds = true ∧ verdict ds = .met := by
  cases holds <;> simp [verdict]

theorem verdict_trusted_met_iff : verdict (.trusted holds :: ds) = .met ↔ holds = true ∧ verdict ds = .met := by
  cases holds <;> simp [verdict]

theorem verdict_append (ds ds' : List Demand) :
    verdict (ds ++ ds') = match verdict ds with
      | .met => verdict ds'
      | .refused => .refused
      | .strayed => .strayed := by
  induction ds with
  | nil => rfl
  | cons d ds ih =>
    cases d with
    | guarded holds => cases holds <;> simp [verdict, ih]
    | trusted holds => cases holds <;> simp [verdict, ih]

theorem verdict_append_met_iff : verdict (ds ++ ds') = .met ↔ verdict ds = .met ∧ verdict ds' = .met := by
  rw [verdict_append]
  cases verdict ds <;> simp

theorem verdict_flatMap_met_iff {xs : List γ} {f : γ → List Demand} :
    verdict (xs.flatMap f) = .met ↔ ∀ x ∈ xs, verdict (f x) = .met := by
  induction xs with
  | nil => simp [verdict]
  | cons x xs ih => simp [List.flatMap_cons, verdict_append_met_iff, ih]

/-! ### How computations make their demands -/

namespace Performs

theorem eq_ok (h : Performs m ds a) (hmet : verdict ds = .met) : m = ok a := by
  simpa [Performs, hmet] using h

theorem exists_throw (h : Performs m ds a) (hrefused : verdict ds = .refused) : ∃ e, m = throw e := by
  simpa [Performs, hrefused] using h

theorem eq_undefined (h : Performs m ds a) (hstrayed : verdict ds = .strayed) : m = undefined := by
  simpa [Performs, hstrayed] using h

/-- A computation that ends in a value has met its demands, and the value is the one it yields. -/
theorem met_of_eq_ok (h : Performs m ds a) {a' : α} (hm : m = .ok a') : verdict ds = .met ∧ a = a' := by
  subst hm
  cases hv : verdict ds with
  | met =>
    have heq := h.eq_ok hv
    cases heq
    exact ⟨rfl, rfl⟩
  | refused =>
    obtain ⟨e, he⟩ := h.exists_throw hv
    cases he
  | strayed => cases h.eq_undefined hv

theorem ok (a : α) : Performs (Outcome.ok a : Outcome ε α) [] a := rfl

theorem trust (hm : m = if holds then .ok a else .undefined) : Performs m [.trusted holds] a := by
  subst hm
  cases holds <;> rfl

theorem mapError {ε' : Type*} (h : Performs m ds a) (f : ε → ε') : Performs (m.mapError f) ds a := by
  unfold Performs
  cases hv : verdict ds with
  | met =>
    rw [h.eq_ok hv]
    rfl
  | refused =>
    obtain ⟨e, rfl⟩ := h.exists_throw hv
    exact ⟨f e, rfl⟩
  | strayed =>
    rw [h.eq_undefined hv]
    rfl

/-- One computation after the other. The second one may count on the demands of the first. -/
theorem bind {k : α → Outcome ε β} (h : Performs m ds a)
    (hk : verdict ds = .met → Performs (k a) ds' b) : Performs (m >>= k) (ds ++ ds') b := by
  unfold Performs
  rw [verdict_append]
  cases hv : verdict ds with
  | met =>
    rw [h.eq_ok hv]
    exact hk hv
  | refused =>
    obtain ⟨e, rfl⟩ := h.exists_throw hv
    exact ⟨e, rfl⟩
  | strayed =>
    rw [h.eq_undefined hv]
    rfl

theorem foldlM {xs : List γ} {f : β → γ → Outcome ε β} {demands : γ → List Demand} {g : β → γ → β}
    (h : ∀ b, ∀ x ∈ xs, Performs (f b x) (demands x) (g b x)) (b : β) :
    Performs (xs.foldlM f b) (xs.flatMap demands) (xs.foldl g b) := by
  induction xs generalizing b with
  | nil => exact Performs.ok b
  | cons x xs ih =>
    rw [List.foldlM_cons, List.flatMap_cons, List.foldl_cons]
    exact bind (h b x List.mem_cons_self) fun _ =>
      ih (fun b y hy => h b y (List.mem_cons_of_mem x hy)) (g b x)

end Performs
end Outcome
