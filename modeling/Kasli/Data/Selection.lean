import Mathlib.Data.List.Basic

/-! What is kept of a list that is too long. A text is cut so that a mark after what is left fills
the cap; what comes after the cap is not looked at, so cutting a text of which more follows gives
the same as cutting all of it. Of items the first in some order are kept: a sorting routine need
not be stable, and promises some order of the same items in which no item comes before a smaller
one. Merge sort is such a routine. -/

namespace Kasli

/-! ### Lists within a cap -/

section

variable {A : Type*}

/-- `l`, or its beginning and `mark`. -/
def capped (mark : List A) (cap : ℕ) (l : List A) : List A :=
  if l.length ≤ cap then l else l.take (cap - mark.length) ++ mark

variable {mark l : List A} {cap : ℕ}

theorem capped_of_le (h : l.length ≤ cap) : capped mark cap l = l := if_pos h

theorem capped_of_lt (h : cap < l.length) :
    capped mark cap l = l.take (cap - mark.length) ++ mark :=
  if_neg (by omega)

theorem length_capped_of_lt (hm : mark.length ≤ cap) (h : cap < l.length) :
    (capped mark cap l).length = cap := by
  rw [capped_of_lt h, List.length_append, List.length_take]
  omega

theorem length_capped_le (hm : mark.length ≤ cap) (l : List A) :
    (capped mark cap l).length ≤ cap := by
  rcases Nat.lt_or_ge cap l.length with h | h
  · exact Nat.le_of_eq (length_capped_of_lt hm h)
  · rwa [capped_of_le h]

/-- Beyond the cap nothing is read. -/
theorem capped_append_of_lt (h : cap < l.length) (l' : List A) :
    capped mark cap (l ++ l') = capped mark cap l := by
  rw [capped_of_lt h, capped_of_lt (by rw [List.length_append]; omega),
    List.take_append_of_le_length (by omega)]

end

/-! ### Sorted lists -/

structure Sorting {R : Type} (less : R → R → Bool) where
  sort : List R → List R
  perm : ∀ l, (sort l).Perm l
  sorted : ∀ l, (sort l).Pairwise fun a b => ¬ less b a

/-- The stable sort, for a comparison by which the items are in a weak order. -/
def Sorting.merge {R : Type} (less : R → R → Bool)
    (trans : ∀ a b c, ¬ less b a → ¬ less c b → ¬ less c a)
    (asymm : ∀ a b, less a b → ¬ less b a) : Sorting less where
  sort l := l.mergeSort fun a b => !less b a
  perm l := List.mergeSort_perm l _
  sorted l := by
    have htrans : ∀ a b c : R, (!less b a) = true → (!less c b) = true → (!less c a) = true := by
      intro a b c hab hbc
      simpa using trans a b c (by simpa using hab) (by simpa using hbc)
    have htotal : ∀ a b : R, ((!less b a) || !less a b) = true := by
      intro a b
      cases h : less a b with
      | true => simpa [h] using asymm a b h
      | false => simp
    exact (List.pairwise_mergeSort htrans htotal l).imp (by simp)

/-! ### The first items -/

/-- All of the first `k` items have a property that no item has after one that has it not,
exactly when `k` items have it. -/
theorem forall_take_iff_countP {R : Type} {p : R → Bool} {l : List R}
    (hl : l.Pairwise fun a b => p b → p a) (k : ℕ) :
    (∀ a ∈ l.take k, p a) ↔ min k l.length ≤ l.countP p := by
  induction l generalizing k with
  | nil => simp
  | cons a l ih =>
    obtain ⟨hhead, htail⟩ := List.pairwise_cons.mp hl
    cases k with
    | zero => simp
    | succ k =>
      rw [List.take_succ_cons, List.forall_mem_cons, List.countP_cons, List.length_cons]
      by_cases ha : p a = true
      · rw [if_pos ha, ih htail]
        simp only [ha, true_and]
        omega
      · have hnone : l.countP p = 0 := List.countP_eq_zero.mpr fun b hb hp => ha (hhead b hb hp)
        rw [if_neg ha, hnone]
        exact iff_of_false (fun h => ha h.1) (by omega)

section

variable {R : Type} {less : R → R → Bool} (sorting : Sorting less)

theorem Sorting.length_sort (l : List R) : (sorting.sort l).length = l.length :=
  (sorting.perm l).length_eq

/-- No item comes before one of the first `k` in the order exactly when `k` items do not come
after it. -/
theorem Sorting.forall_take_iff (trans : ∀ a b c, ¬ less b a → ¬ less c b → ¬ less c a) (l : List R)
    (k : ℕ) (c : R) :
    (∀ a ∈ (sorting.sort l).take k, ¬ less c a) ↔ min k l.length ≤ l.countP fun a => !less c a := by
  have hsorted : (sorting.sort l).Pairwise fun a b => (!less c b) = true → (!less c a) = true :=
    (sorting.sorted l).imp fun {a b} hba hcb => by simpa using trans a b c hba (by simpa using hcb)
  have hfirst := forall_take_iff_countP hsorted k
  rw [sorting.length_sort, (sorting.perm l).countP_eq] at hfirst
  rw [← hfirst]
  simp

/-- What comes after the first items is not before them. -/
theorem Sorting.not_less_of_drop {l : List R} {k : ℕ} {a b : R} (ha : a ∈ (sorting.sort l).take k)
    (hb : b ∈ (sorting.sort l).drop k) : ¬ less b a := by
  have hsorted := sorting.sorted l
  rw [← List.take_append_drop k (sorting.sort l)] at hsorted
  exact (List.pairwise_append.mp hsorted).2.2 a ha b hb

end

end Kasli
