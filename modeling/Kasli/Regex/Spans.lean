import Kasli.Regex.Replace

/-! The spans that a scan replaces: for every match, what its tail consumed. Where no position
of a stretch has a match, the spans are those of the text after it. -/

namespace Kasli.Regex.Rule

variable {α : Type*}

/-- The replaced spans, with the number of characters still covered by the last match. -/
def spansFrom (R : Rule α) : ℕ → List α → List (List α)
  | _, [] => []
  | k + 1, _ :: s => R.spansFrom k s
  | 0, a :: s =>
    match R.firstMatch (a :: s) with
    | none => R.spansFrom 0 s
    | some (kept, rest) =>
      ((a :: s).take ((a :: s).length - rest.length)).drop kept.length ::
        R.spansFrom (s.length - rest.length) s

def spans (R : Rule α) (s : List α) : List (List α) := R.spansFrom 0 s

variable (R : Rule α)

theorem spansFrom_eq_drop (k : ℕ) (s : List α) : R.spansFrom k s = R.spans (s.drop k) := by
  induction s generalizing k with
  | nil => simp [spansFrom, spans]
  | cons a s ih =>
    cases k with
    | zero => rfl
    | succ k => simp only [spansFrom, ih, List.drop_succ_cons]

@[simp] theorem spans_nil : R.spans [] = [] := rfl

theorem spans_skip {a : α} {s : List α} (h : R.firstMatch (a :: s) = none) :
    R.spans (a :: s) = R.spans s := by
  simp only [spans, spansFrom, h]

/-- The span of a match comes first. -/
theorem spans_hit {kept t rest : List α}
    (h : R.firstMatch (kept ++ t ++ rest) = some (kept, rest)) :
    R.spans (kept ++ t ++ rest) = t :: R.spans rest := by
  obtain ⟨a, kept, rfl⟩ := List.exists_cons_of_ne_nil (R.kept_ne_nil h)
  have hlen : (a :: kept ++ t ++ rest).length - rest.length = (a :: kept ++ t).length := by
    rw [List.length_append]
    omega
  have hspan : ((a :: kept ++ t ++ rest).take ((a :: kept ++ t ++ rest).length - rest.length)).drop
      (a :: kept).length = t := by
    rw [hlen, List.take_left, List.drop_left]
  have hdrop : (kept ++ t ++ rest).length - rest.length = (kept ++ t).length := by
    rw [List.length_append]
    omega
  simp only [List.cons_append] at h hspan ⊢
  simp only [spans, spansFrom, h, hspan]
  rw [spansFrom_eq_drop, hdrop, List.drop_left]
  rfl

/-- A stretch of positions without a match adds no span. -/
theorem spans_append_of_none {s t : List α}
    (h : ∀ s', s' <:+ s → s' ≠ [] → R.firstMatch (s' ++ t) = none) :
    R.spans (s ++ t) = R.spans t := by
  induction s with
  | nil => rfl
  | cons a s ih =>
    have ha : R.firstMatch (a :: (s ++ t)) = none := h (a :: s) List.suffix_rfl (by simp)
    rw [List.cons_append, R.spans_skip ha, ih fun s' hs => h s' (hs.trans (List.suffix_cons a s))]

end Kasli.Regex.Rule
