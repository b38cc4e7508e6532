import Kasli.Regex.Replace
import Mathlib.Data.List.DropRight

/-! The two kinds of tail the redaction rules use: a nonempty run of a character
class, and a text between two delimiters. For each, the exact rest it leaves and the
condition under which it reads all texts after a context the same way. -/

namespace Kasli.Regex

variable {α : Type*}

/-- A run ends where it is followed by something else. -/
theorem takeWhile_run {p : α → Bool} {u y : List α} (hu : ∀ a ∈ u, p a)
    (hy : ∀ a ∈ y.head?, p a = false) : (u ++ y).takeWhile p = u := by
  rw [List.takeWhile_append_of_pos hu]
  cases y with
  | nil => simp
  | cons a y => simp [hy a rfl]

namespace Pattern

/-- A text between two delimiters that holds none itself. -/
def delimited (q : α → Bool) : Pattern α :=
  .seq (.cls q) (.seq (.many fun a => !q a) (.cls q))

theorem spans_head? (p : α → Bool) (s : List α) :
    (spans p s).head? = some (s.takeWhile p, s.dropWhile p) := by
  induction s with
  | nil => rfl
  | cons a s ih =>
    by_cases ha : p a <;> simp [spans, ha, List.head?_append, ih]

/-- A run that must be followed by a delimiter ends at the first one: there is at most one way. -/
theorem splits_many_not_cls (q : α → Bool) (s : List α) :
    (seq (.many fun a => !q a) (.cls q)).splits s =
      match s.dropWhile fun a => !q a with
      | [] => []
      | a :: r => [(s.takeWhile (fun a => !q a) ++ [a], r)] := by
  induction s with
  | nil => rfl
  | cons a s ih =>
    by_cases ha : q a
    · simp [spans, splits, ha]
    · have hstep : (seq (.many fun a => !q a) (.cls q)).splits (a :: s) =
          ((seq (.many fun a => !q a) (.cls q)).splits s).map fun m => (a :: m.1, m.2) := by
        simp [splits, spans, ha, List.flatMap_map, List.map_flatMap, Function.comp_def]
      rw [hstep, ih]
      simp only [ha, Bool.not_false, List.dropWhile_cons_of_pos, List.takeWhile_cons_of_pos]
      cases s.dropWhile fun a => !q a <;> rfl

theorem mem_plus {p : α → Bool} {t : List α} : t ∈ (plus p).Lang ↔ t ≠ [] ∧ ∀ a ∈ t, p a := by
  simp only [plus, Lang, Set.mem_image2, Set.mem_ofPred_eq]
  constructor
  · rintro ⟨_, ⟨a, ha, rfl⟩, r, hr, rfl⟩
    simpa [ha] using hr
  · rintro ⟨hne, h⟩
    obtain ⟨a, t, rfl⟩ := List.exists_cons_of_ne_nil hne
    exact ⟨[a], ⟨a, h a (by simp), rfl⟩, t, fun b hb => h b (by simp [hb]), rfl⟩

theorem plus_rest (p : α → Bool) (s : List α) :
    ((plus p).splits s).head?.map Prod.snd =
      if (s.head?.any p) then some (s.dropWhile p) else none := by
  cases s with
  | nil => rfl
  | cons a s =>
    by_cases ha : p a <;> simp [plus, splits, ha, spans_head?]

theorem delimited_rest (q : α → Bool) (s : List α) :
    ((delimited q).splits s).head?.map Prod.snd =
      if s.head?.any q then (s.tail.dropWhile fun a => !q a).tail? else none := by
  cases s with
  | nil => rfl
  | cons a s =>
    by_cases ha : q a
    · rw [delimited, splits, splits, if_pos ha, List.flatMap_singleton, splits_many_not_cls]
      simp only [List.head?_cons, Option.any_some, ha, ↓reduceIte, List.tail_cons]
      cases s.dropWhile fun a => !q a <;> rfl
    · simp [delimited, splits, ha]

end Pattern

namespace Rule

variable (R : Rule α) {W : Set (List α)}

theorem tailRest_plus {p : α → Bool} (h : R.tail = .plus p) (s : List α) :
    R.tailRest s = if s.head?.any p then some (s.dropWhile p) else none := by
  rw [tailRest, h, Pattern.plus_rest]

theorem tailRest_delimited {q : α → Bool} (h : R.tail = .delimited q) (s : List α) :
    R.tailRest s = if s.head?.any q then (s.tail.dropWhile fun a => !q a).tail? else none := by
  rw [tailRest, h, Pattern.delimited_rest]

theorem dropWhile_append_of_ne_nil {p : α → Bool} {r : List α} (h : r.dropWhile p ≠ [])
    (w : List α) : (r ++ w).dropWhile p = r.dropWhile p ++ w := by
  rw [List.dropWhile_append, if_neg (by simpa using h)]

theorem dropWhile_append_of_nil {p : α → Bool} {r : List α} (h : r.dropWhile p = [])
    (w : List α) : (r ++ w).dropWhile p = w.dropWhile p := by
  rw [List.dropWhile_append, if_pos (by simpa using h)]

/-- A run reads all texts alike that begin inside it and leave it at the same point. -/
theorem tailUniform_plus {p : α → Bool} (h : R.tail = .plus p) {y : List α}
    (hW : ∀ w ∈ W, w.head?.any p ∧ w.dropWhile p = y) (r : List α) : R.TailUniform W r := by
  have hrest : ∀ w ∈ W, R.tailRest (r ++ w) =
      if r.head?.all p then some ((r ++ w).dropWhile p) else none := by
    intro w hw
    rw [R.tailRest_plus h]
    cases r with
    | nil => simp [(hW w hw).1]
    | cons a r => rfl
  by_cases hr : r.head?.all p
  · by_cases hd : r.dropWhile p = []
    · refine Or.inr (Or.inr ⟨y, fun w hw => ?_⟩)
      rw [hrest w hw, if_pos hr, dropWhile_append_of_nil hd, (hW w hw).2]
    · refine Or.inr (Or.inl ⟨r.dropWhile p, List.dropWhile_suffix p, fun w hw => ?_⟩)
      rw [hrest w hw, if_pos hr, dropWhile_append_of_ne_nil hd]
  · exact Or.inl fun w hw => by rw [hrest w hw, if_neg hr]

/-- A delimited text reads all texts alike that do not begin with a delimiter and whose first
delimiter leaves the same rest. -/
theorem tailUniform_delimited {q : α → Bool} (h : R.tail = .delimited q) {y : List α}
    (hW : ∀ w ∈ W, w.head?.any q = false ∧ (w.dropWhile fun a => !q a) = y) (r : List α) :
    R.TailUniform W r := by
  rcases r with _ | ⟨a, r⟩
  · exact Or.inl fun w hw => by rw [R.tailRest_delimited h]; simp [(hW w hw).1]
  · have hrest : ∀ w ∈ W, R.tailRest (a :: r ++ w) =
        if q a then ((r ++ w).dropWhile fun a => !q a).tail? else none := by
      intro w _
      rw [R.tailRest_delimited h]
      rfl
    by_cases ha : q a
    · rcases hd : r.dropWhile fun a => !q a with _ | ⟨b, r'⟩
      · rcases y with _ | ⟨b, y⟩
        · refine Or.inl fun w hw => ?_
          rw [hrest w hw, if_pos ha, dropWhile_append_of_nil hd, (hW w hw).2]
          rfl
        · refine Or.inr (Or.inr ⟨y, fun w hw => ?_⟩)
          rw [hrest w hw, if_pos ha, dropWhile_append_of_nil hd, (hW w hw).2]
          rfl
      · refine Or.inr (Or.inl ⟨r', ?_, fun w hw => ?_⟩)
        · have hs : b :: r' <:+ r := hd ▸ List.dropWhile_suffix _
          exact (List.suffix_cons b r').trans (hs.trans (List.suffix_cons a r))
        · rw [hrest w hw, if_pos ha, dropWhile_append_of_ne_nil (by simp [hd]), hd]
          rfl
    · exact Or.inl fun w hw => by rw [hrest w hw, if_neg ha]

end Rule

end Kasli.Regex
