import Kasli.Text.Lines

/-! The lines of a text that is cut: all but the last are those of the whole text. -/

namespace Kasli

/-- What is put before the first line of a text leaves the others as they are. -/
theorem lines_append_of_notMem {part : Bytes} (hpart : newline ∉ part) (rest : Bytes) :
    ∃ whole, lines (part ++ rest) = whole :: (lines rest).tail ∧ part <+: whole := by
  by_cases h : newline ∈ rest
  · obtain ⟨before, after, rfl, hbefore⟩ := List.eq_append_cons_of_mem h
    refine ⟨part ++ before, ?_, List.prefix_append _ _⟩
    have hnot : newline ∉ part ++ before := by simp [hpart, hbefore]
    have hline : part ++ (before ++ newline :: after) = line (part ++ before) ++ after := by
      simp [line]
    have hrest : before ++ newline :: after = line before ++ after := by simp [line]
    rw [hline, hrest, lines_line, lines_line, lines_of_notMem hnot, lines_of_notMem hbefore]
    rfl
  · have hnot : newline ∉ part ++ rest := by simp [hpart, h]
    refine ⟨part ++ rest, ?_, List.prefix_append _ _⟩
    rw [lines_of_notMem hnot, lines_of_notMem h]
    rfl

/-- A text whose beginning is another one has its lines but for the last, which may go on. -/
theorem lines_of_isPrefix {text whole : Bytes} (h : text <+: whole) :
    ∃ before part line after, lines text = before ++ [part] ∧
      lines whole = before ++ line :: after ∧ part <+: line := by
  obtain ⟨rest, rfl⟩ := h
  by_cases hnewline : newline ∈ text
  · obtain ⟨before, part, rfl, hpart⟩ := exists_line_append hnewline
    obtain ⟨line, hlines, hprefix⟩ := lines_append_of_notMem hpart rest
    refine ⟨lines before, part, line, (lines rest).tail, ?_, ?_, hprefix⟩
    · rw [lines_line, lines_of_notMem hpart]
    · rw [List.append_assoc, lines_line, hlines]
  · obtain ⟨line, hlines, hprefix⟩ := lines_append_of_notMem hnewline rest
    exact ⟨[], text, line, (lines rest).tail, lines_of_notMem hnewline, hlines, hprefix⟩

/-- A text of lines that is cut ends in the middle of a line, or at its ends. -/
theorem exists_take_flatMap_line {l : List Bytes} {n : ℕ} (h : n < (l.flatMap line).length) :
    ∃ before part rest after, l = before ++ (part ++ rest) :: after ∧
      (l.flatMap line).take n = before.flatMap line ++ part := by
  induction l generalizing n with
  | nil => cases h
  | cons s l ih =>
    rw [List.flatMap_cons] at h ⊢
    rcases Nat.lt_or_ge s.length n with hlong | hshort
    · have hline : (line s).length = s.length + 1 := by rw [line, List.length_append]; rfl
      rw [List.length_append] at h
      obtain ⟨before, part, rest, after, rfl, htake⟩ := ih (n := n - (line s).length) (by omega)
      refine ⟨s :: before, part, rest, after, rfl, ?_⟩
      rw [List.take_append, List.take_of_length_le (by omega), htake, List.flatMap_cons,
        List.append_assoc]
    · refine ⟨[], s.take n, s.drop n, l, by rw [List.take_append_drop]; rfl, ?_⟩
      rw [line, List.append_assoc, List.take_append_of_le_length hshort]
      rfl

theorem length_flatMap_line_le {l l' : List Bytes} (h : l <+: l') :
    (l.flatMap line).length ≤ (l'.flatMap line).length := by
  obtain ⟨more, rfl⟩ := h
  rw [List.flatMap_append, List.length_append]
  exact Nat.le_add_right _ _

/-- A cut between two lines. -/
theorem atLineStart_iff (before : List Bytes) {part : Bytes} (hpart : newline ∉ part) :
    AtLineStart (before.flatMap line ++ part) ↔ part = [] := by
  constructor
  · intro h
    by_contra hne
    refine hpart (h _ ?_ ▸ List.getLast_mem hne)
    rw [List.getLast?_append_of_ne_nil _ hne, List.getLast?_eq_some_getLast hne]
    rfl
  · rintro rfl
    rw [List.append_nil]
    rcases List.eq_nil_or_concat before with rfl | ⟨before, s, rfl⟩
    · simp [AtLineStart]
    · rw [List.concat_eq_append, List.flatMap_append, List.flatMap_singleton]
      exact atLineStart_append_line _ _

end Kasli
