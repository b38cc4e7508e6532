import Kasli.Text.Bytes
import Mathlib.Data.List.Induction

/-! Texts as lists of lines. A field of free text is written between fixed lines; where it
ends can be read off the text when the lines that close it do not follow one another inside
the field. -/

namespace Kasli

section Closer

variable {A : Type*} {a : A} {d d' l l' r r' : List A}

/-- A block that ends at `a :: d` cannot end inside a block in which `a :: d` does not occur. -/
theorem nil_of_append_closer (hd : a ∉ d) (hl' : ¬ a :: d <:+: l ++ l')
    (h : a :: (d ++ r) = l' ++ a :: (d' ++ r')) : l' = [] := by
  cases l' with
  | nil => rfl
  | cons b m =>
    obtain ⟨rfl, ht⟩ := List.cons.inj h
    obtain ⟨x, rfl, -⟩ | ⟨x, hx, hr⟩ := List.append_eq_append_iff.mp ht
    · exact absurd ⟨l, x, by simp⟩ hl'
    · cases x with
      | nil => exact absurd ⟨l, [], by simp [hx]⟩ hl'
      | cons c x =>
        rw [List.cons_append] at hr
        refine absurd ?_ hd
        rw [hx, (List.cons.inj hr).1]
        simp

/-- Where a block ends is determined when the lines that close it do not occur in it. The
closing lines may differ after the first. -/
theorem append_closer_inj (hd : a ∉ d) (hd' : a ∉ d') (hl : ¬ a :: d' <:+: l)
    (hl' : ¬ a :: d <:+: l')
    (h : l ++ a :: (d ++ r) = l' ++ a :: (d' ++ r')) : l = l' ∧ d ++ r = d' ++ r' := by
  obtain ⟨m, rfl, hm⟩ | ⟨m, rfl, hm⟩ := List.append_eq_append_iff.mp h
  · have := nil_of_append_closer hd hl' hm
    subst this
    exact ⟨by simp, (List.cons.inj hm).2⟩
  · have := nil_of_append_closer hd' hl hm
    subst this
    exact ⟨by simp, (List.cons.inj hm).2.symm⟩

end Closer

def newline : UInt8 := chr '\n'

/-- A text and the end of its last line. -/
def line (s : Bytes) : Bytes := s ++ [newline]

/-- The lines of a text. -/
def lines (s : Bytes) : List Bytes := s.splitOn newline

/-- The lines that `std::getline` reads one after another: the end of a last line is not a line. -/
def getLines (s : Bytes) : List Bytes :=
  if (lines s).getLast? = some [] then (lines s).dropLast else lines s

theorem lines_line (s t : Bytes) : lines (line s ++ t) = lines s ++ lines t := by
  rw [lines, line, List.append_assoc, List.singleton_append, List.splitOn_append_cons_self]
  rfl

theorem lines_of_notMem {s : Bytes} (h : newline ∉ s) : lines s = [s] := List.splitOn_eq_singleton h

theorem lines_injective : Function.Injective lines := by
  intro s t h
  have hs (s : Bytes) : [newline].intercalate (lines s) = s := List.intercalate_splitOn newline
  rw [← hs s, ← hs t, h]

theorem lines_flatMap_lines (l : List Bytes) :
    lines (l.flatMap line) = l.flatMap lines ++ [[]] := by
  induction l with
  | nil => rfl
  | cons s l ih => rw [List.flatMap_cons, List.flatMap_cons, lines_line, ih, List.append_assoc]

theorem flatMap_lines_of_notMem {l : List Bytes} (h : ∀ s ∈ l, newline ∉ s) :
    l.flatMap lines = l := by
  induction l with
  | nil => rfl
  | cons s l ih =>
    rw [List.forall_mem_cons] at h
    rw [List.flatMap_cons, lines_of_notMem h.1, ih h.2]
    rfl

/-- Lines put together and taken apart again. -/
theorem lines_flatMap_line {l : List Bytes} (h : ∀ s ∈ l, newline ∉ s) :
    lines (l.flatMap line) = l ++ [[]] := by
  rw [lines_flatMap_lines, flatMap_lines_of_notMem h]

theorem getLines_flatMap_line {l : List Bytes} (h : ∀ s ∈ l, newline ∉ s) :
    getLines (l.flatMap line) = l := by
  have hlast : (l ++ [[]]).getLast? = some ([] : Bytes) := by simp
  rw [getLines, lines_flatMap_line h, if_pos hlast, List.dropLast_concat]

theorem eq_flatMap_of_lines {s : Bytes} {l : List Bytes} (h : lines s = l ++ [[]]) :
    s = l.flatMap line := by
  have hs : [newline].intercalate (lines s) = s := List.intercalate_splitOn newline
  rw [← hs, h]
  clear h hs
  induction l with
  | nil => rfl
  | cons t l ih =>
    rw [List.flatMap_cons, ← ih]
    cases l with
    | nil => simp [line, List.intercalate_cons_cons]
    | cons u l => simp [line, List.intercalate_cons_cons]

/-! ### Complete lines -/

/-- The lines of a text that are ended. -/
def completeLines (s : Bytes) : List Bytes := (lines s).dropLast

/-- What is added to the text begins a line. -/
def AtLineStart (s : Bytes) : Prop := ∀ b ∈ s.getLast?, b = newline

instance (s : Bytes) : Decidable (AtLineStart s) :=
  inferInstanceAs (Decidable (∀ b ∈ s.getLast?, _))

theorem lines_ne_nil (s : Bytes) : lines s ≠ [] := List.splitOn_ne_nil newline s

theorem completeLines_line_append (s t : Bytes) :
    completeLines (line s ++ t) = lines s ++ completeLines t := by
  rw [completeLines, lines_line, List.dropLast_append_of_ne_nil (lines_ne_nil t)]
  rfl

theorem completeLines_of_notMem {s : Bytes} (h : newline ∉ s) : completeLines s = [] := by
  rw [completeLines, lines_of_notMem h]
  rfl

/-- A text is cut after its last complete line. -/
theorem exists_line_append {s : Bytes} (h : newline ∈ s) :
    ∃ a q, s = line a ++ q ∧ newline ∉ q := by
  induction s using List.reverseRecOn with
  | nil => cases h
  | append_singleton s b ih =>
    by_cases hb : b = newline
    · subst hb
      exact ⟨s, [], by simp [line], by simp⟩
    · have hs : newline ∈ s := by simpa [Ne.symm hb] using h
      obtain ⟨a, q, rfl, hq⟩ := ih hs
      exact ⟨a, q ++ [b], by simp, by simp [hq, Ne.symm hb]⟩

/-- No line goes over the end of a line. -/
theorem newline_notMem_of_mem_lines {s text : Bytes} (hs : s ∈ lines text) : newline ∉ s := by
  induction hn : text.length using Nat.strongRecOn generalizing text with
  | ind n ih =>
    by_cases h : newline ∈ text
    · obtain ⟨a, q, rfl, hq⟩ := exists_line_append h
      rw [lines_line, List.mem_append, lines_of_notMem hq, List.mem_singleton] at hs
      rcases hs with hs | rfl
      · refine ih a.length ?_ hs rfl
        rw [line, List.length_append, List.length_append, List.length_singleton] at hn
        omega
      · exact hq
    · rw [lines_of_notMem h, List.mem_singleton] at hs
      rwa [hs]

/-- What is added to a text leaves its complete lines as they are. -/
theorem completeLines_isPrefix (s t : Bytes) : completeLines s <+: completeLines (s ++ t) := by
  by_cases h : newline ∈ s
  · obtain ⟨a, q, rfl, hq⟩ := exists_line_append h
    rw [List.append_assoc, completeLines_line_append, completeLines_line_append,
      completeLines_of_notMem hq, List.append_nil]
    exact List.prefix_append _ _
  · rw [completeLines_of_notMem h]
    exact List.nil_prefix

/-- A line that is added at the start of a line is a complete line of its own. -/
theorem completeLines_append_line {s t : Bytes} (hs : AtLineStart s) (ht : newline ∉ t) :
    completeLines (s ++ line t) = completeLines s ++ [t] := by
  have hline : completeLines (line t) = [t] := by
    rw [← List.append_nil (line t), completeLines_line_append, lines_of_notMem ht]
    rfl
  rcases List.eq_nil_or_concat s with rfl | ⟨a, b, rfl⟩
  · exact hline
  · obtain rfl : b = newline := hs b (by simp)
    have ha : completeLines (line a ++ []) = lines a ++ [] := completeLines_line_append a []
    rw [List.append_nil, List.append_nil] at ha
    rw [List.concat_eq_append]
    change completeLines (line a ++ line t) = completeLines (line a) ++ [t]
    rw [completeLines_line_append, ha, hline]

theorem atLineStart_append_line (s t : Bytes) : AtLineStart (s ++ line t) := by
  intro b hb
  rw [line, ← List.append_assoc, List.getLast?_concat, Option.mem_some_iff] at hb
  exact hb.symm

/-- A text with the end of a line in it has more than one line. -/
theorem one_lt_length_lines {s : Bytes} (h : newline ∈ s) : 1 < (lines s).length := by
  obtain ⟨a, q, rfl, -⟩ := exists_line_append h
  have ha := List.length_pos_of_ne_nil (lines_ne_nil a)
  have hq := List.length_pos_of_ne_nil (lines_ne_nil q)
  rw [lines_line, List.length_append]
  omega

/-- There are as many lines as texts exactly when each text is one line. -/
theorem length_flatMap_lines (l : List Bytes) :
    l.length ≤ (l.flatMap lines).length ∧
      ((l.flatMap lines).length = l.length ↔ ∀ s ∈ l, newline ∉ s) := by
  induction l with
  | nil => simp
  | cons s l ih =>
    rw [List.flatMap_cons, List.length_append, List.length_cons, List.forall_mem_cons, ← ih.2]
    have hpos := List.length_pos_of_ne_nil (lines_ne_nil s)
    have hle := ih.1
    by_cases h : newline ∈ s
    · have hmore := one_lt_length_lines h
      exact ⟨by omega, iff_of_false (by omega) fun hnot => hnot.1 h⟩
    · rw [lines_of_notMem h, List.length_singleton]
      refine ⟨by omega, fun hlen => ⟨h, by omega⟩, fun hlen => ?_⟩
      have heq := hlen.2
      omega

/-- The closing lines do not follow one another inside the text. -/
def EndsOnce (closer : List Bytes) (s : Bytes) : Prop := ¬ closer <:+: lines s

instance (closer : List Bytes) (s : Bytes) : Decidable (EndsOnce closer s) :=
  inferInstanceAs (Decidable (¬ closer <:+: lines s))

end Kasli
