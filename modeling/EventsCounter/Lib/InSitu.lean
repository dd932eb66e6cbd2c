import EventsCounter.Lib.Sessions

/-!
# In-situ streams

A parser reads characters and puts the decoded strings back into the buffer it reads from. `Ideal` is
what it would like to believe: the text is never written to, it is followed by NULs without end, and
a string that has been finished stays where it begins, as it was put.

`Ideal.perform` is `none` where the in-situ discipline is broken: a character is put only where one
has been taken since the string was begun, and only the last string begun is finished.
-/

namespace InSitu

inductive Op (χ : Type*)
  | peek
  | take
  | tell
  | putBegin
  | put (c : χ)
  | putEnd (begin : ℕ)

inductive Answer (χ : Type*)
  | char (c : χ)
  | position (n : ℕ)
  | done

/-- The text, the position in it, the string being put with the position it begins at and the
characters taken since, and the strings finished so far. -/
structure Ideal (χ : Type*) where
  text : List χ
  pos : ℕ
  begin : Option ℕ
  taken : ℕ
  opened : List χ
  completed : List (ℕ × List χ)

namespace Ideal

variable {χ : Type*}

def make (text : List χ) : Ideal χ := ⟨text, 0, none, 0, [], []⟩

def perform (nul : χ) (r : Ideal χ) : Op χ → Option (Answer χ × Ideal χ)
  | .peek => some (.char (r.text[r.pos]?.getD nul), r)
  | .take =>
    match r.text[r.pos]? with
    | some c => some (.char c, { r with pos := r.pos + 1, taken := r.taken + 1 })
    | none => some (.char nul, r)
  | .tell => some (.position r.pos, r)
  | .putBegin => some (.position r.pos, { r with begin := some r.pos, taken := 0, opened := [] })
  | .put c =>
    if r.opened.length + 1 ≤ r.taken then some (.done, { r with opened := r.opened ++ [c] }) else none
  | .putEnd begin =>
    if r.begin = some begin then
      some (.position r.opened.length, { r with completed := r.completed ++ [(begin, r.opened)] })
    else none

/-- Where the string being put begins; at the start of the text, as long as none has been begun. -/
def start (r : Ideal χ) : ℕ := r.begin.getD 0

end Ideal

/-! ### Slices of a buffer -/

section
variable {χ : Type*} {xs ys : List χ} {b n i : ℕ} {c : χ}

def slice (xs : List χ) (b n : ℕ) : List χ := (xs.drop b).take n

@[simp] theorem slice_zero : slice xs b 0 = [] := by simp [slice]

theorem take_slice (h : i ≤ n) : (slice xs b n).take i = slice xs b i := by
  rw [slice, List.take_take, Nat.min_eq_left h, slice]

theorem getElem?_slice (h : i < n) : (slice xs b n)[i]? = xs[b + i]? := by
  rw [slice, List.getElem?_take, if_pos h, List.getElem?_drop]

theorem slice_set (h : b + n ≤ i) : slice (xs.set i c) b n = slice xs b n := by
  unfold slice
  rw [List.drop_set, if_neg (by omega), List.take_set_of_le (by omega)]

theorem slice_set_end (hi : b + n = i) (hlt : i < xs.length) :
    slice (xs.set i c) b (n + 1) = slice xs b n ++ [c] := by
  subst hi
  unfold slice
  rw [List.drop_set, if_neg (by omega), Nat.add_sub_cancel_left, List.take_succ_eq_append_getElem (by simp; omega),
    List.take_set_of_le (le_refl n)]
  simp

end

end InSitu
