import Kasli.Json.Text
import Kasli.Regex.Spans

/-! Rewriting inside strings. The text of a string is a row of pieces, one for each byte. A rule
that replaces spans which are string text themselves, in a text that has strings in it, leaves strings
where there were strings. -/

namespace Kasli.Json

open Regex

/-- The text of a string, between its quotes. -/
def IsText (t : Bytes) : Prop := ∃ s : Bytes, t = s.flatMap escapeByte

/-- Where the byte stands a piece of string text is over. -/
def EndsPiece (y : UInt8) : Prop := ∀ b, y ∈ escapeByte b → escapeByte b = [y]

/-- The rule's heads stay within strings, and stop between two pieces. -/
structure ActsInText (R : Rule UInt8) : Prop where
  head : ∀ c ∈ R.head.Lang, chr '"' ∉ c ∧ ∃ d y, c = d ++ [y] ∧ EndsPiece y
  tail : ∀ t ∈ R.tail.Lang, IsText t → IsText R.replacement

/-- String text at the front of a string is its beginning. -/
theorem text_append {t w x z : Bytes}
    (h : t.flatMap escapeByte ++ x = w.flatMap escapeByte ++ chr '"' :: z) :
    ∃ w', w = t ++ w' ∧ x = w'.flatMap escapeByte ++ chr '"' :: z := by
  induction t generalizing w with
  | nil => exact ⟨w, rfl, h⟩
  | cons b t ih =>
    rw [List.flatMap_cons, List.append_assoc] at h
    cases w with
    | nil => exact absurd h (escapeByte_append_ne_quote b _ _)
    | cons b' w =>
      rw [List.flatMap_cons, List.append_assoc] at h
      obtain ⟨rfl, h'⟩ := escapeByte_append_inj h
      obtain ⟨w', rfl, rfl⟩ := ih h'
      exact ⟨w', rfl, rfl⟩

/-- A stretch without quotes that ends where a piece is over is string text. -/
theorem text_of_ends {c w x z : Bytes} {y : UInt8} (hy : EndsPiece y) (hq : chr '"' ∉ c ++ [y])
    (h : c ++ [y] ++ x = w.flatMap escapeByte ++ chr '"' :: z) :
    ∃ u w', c ++ [y] = u.flatMap escapeByte ∧ w = u ++ w' ∧ x = w'.flatMap escapeByte ++
      chr '"' :: z := by
  induction w generalizing c with
  | nil =>
    have hhead : chr '"' ∈ c ++ [y] := by
      cases c with
      | nil => simp [(List.cons.inj h).1]
      | cons a c => simp [(List.cons.inj h).1]
    exact absurd hhead hq
  | cons b w ih =>
    rw [List.flatMap_cons, List.append_assoc, List.append_assoc] at h
    rcases List.append_eq_append_iff.mp h with ⟨m, hb, hrest⟩ | ⟨m, rfl, hrest⟩
    · cases m with
      | nil =>
        rw [List.append_nil] at hb
        have hq' : chr '"' ∉ [] ++ [y] := fun hm => hq (List.mem_append_right c (by simpa using hm))
        obtain ⟨u, w', hu, rfl, rfl⟩ := ih hq' (by simpa using hrest)
        exact ⟨b :: u, w', by rw [← hb, List.flatMap_cons, ← hu, List.nil_append], rfl, rfl⟩
      | cons a m =>
        obtain ⟨rfl, hx⟩ := List.cons.inj hrest
        have hone := hy b (by simp [hb])
        obtain ⟨rfl, rfl⟩ : c = [] ∧ m = [] := by
          have hlen := congrArg List.length (hb.symm.trans hone)
          rw [List.length_append, List.length_cons, List.length_singleton] at hlen
          exact ⟨List.eq_nil_of_length_eq_zero (by omega), List.eq_nil_of_length_eq_zero (by omega)⟩
        exact ⟨[b], w, by simp [hone], rfl, hx⟩
    · have hq' : chr '"' ∉ m ++ [y] := fun hm => hq (by
        rw [List.append_assoc]
        exact List.mem_append_right _ hm)
      obtain ⟨u, w', hu, rfl, rfl⟩ := ih hq' (by simpa using hrest.symm)
      exact ⟨b :: u, w', by rw [List.append_assoc, hu, List.flatMap_cons], rfl, rfl⟩

/-- The same where the stretch begins inside a piece. -/
theorem text_of_ends_inside {r c w x z : Bytes} {b y : UInt8} (hr : r <:+ escapeByte b)
    (hy : EndsPiece y)
    (hq : chr '"' ∉ c ++ [y]) (h : c ++ [y] ++ x = r ++ (w.flatMap escapeByte ++ chr '"' :: z)) :
    ∃ u w', c ++ [y] = r ++ u.flatMap escapeByte ∧ w = u ++ w' ∧ x = w'.flatMap escapeByte ++
      chr '"' :: z := by
  rw [List.append_assoc] at h
  rcases List.append_eq_append_iff.mp h with ⟨m, rfl, hrest⟩ | ⟨m, rfl, hrest⟩
  · cases m with
    | nil =>
      have hq' : chr '"' ∉ [] ++ [y] := fun hm => hq (List.mem_append_right c (by simpa using hm))
      obtain ⟨u, w', hu, rfl, rfl⟩ := text_of_ends hy hq' (by simpa using hrest)
      exact ⟨u, w', by rw [← hu, List.append_nil, List.nil_append], rfl, rfl⟩
    | cons a m =>
      obtain ⟨rfl, hx⟩ := List.cons.inj hrest
      have hone := hy b (hr.subset (by simp))
      have hlen := hr.length_le
      rw [hone, List.length_append, List.length_cons, List.length_singleton] at hlen
      obtain ⟨rfl, rfl⟩ : c = [] ∧ m = [] :=
        ⟨List.eq_nil_of_length_eq_zero (by omega), List.eq_nil_of_length_eq_zero (by omega)⟩
      exact ⟨[], w, by simp, rfl, hx⟩
  · have hq' : chr '"' ∉ m ++ [y] := fun hm => hq (by
      rw [List.append_assoc]
      exact List.mem_append_right _ hm)
    obtain ⟨u, w', hu, rfl, rfl⟩ := text_of_ends hy hq' (by simpa using hrest.symm)
    exact ⟨u, w', by rw [List.append_assoc, hu], rfl, rfl⟩

/-- A scan of a string and what follows it: the string stays a string, and what follows is scanned
on its own. -/
theorem replaceAll_text {R : Rule UInt8} (hR : ActsInText R) {r w z : Bytes} {b : UInt8}
    (hr : r <:+ escapeByte b)
    (h : ∀ t ∈ R.spans (r ++ (w.flatMap escapeByte ++ chr '"' :: z)), IsText t) :
    (∃ w' : Bytes, R.replaceAll (r ++ (w.flatMap escapeByte ++ chr '"' :: z)) =
      r ++ (w'.flatMap escapeByte ++ R.replaceAll (chr '"' :: z))) ∧
    ∀ t ∈ R.spans (chr '"' :: z), IsText t := by
  generalize hs : r ++ (w.flatMap escapeByte ++ chr '"' :: z) = s at h ⊢
  induction s using R.scan_induction generalizing r w b with
  | nil => simp at hs
  | skip a s hm ih =>
    rw [R.spans_skip hm] at h
    rw [R.replaceAll_skip hm]
    cases r with
    | cons a' r =>
      obtain ⟨rfl, rfl⟩ := List.cons.inj hs
      obtain ⟨⟨w', hw⟩, hz⟩ := ih ((List.suffix_cons _ _).trans hr) rfl h
      exact ⟨⟨w', by rw [hw]; rfl⟩, hz⟩
    | nil =>
      cases w with
      | nil =>
        obtain ⟨rfl, rfl⟩ := List.cons.inj hs
        refine ⟨⟨[], (R.replaceAll_skip hm).symm⟩, ?_⟩
        rw [R.spans_skip hm]
        exact h
      | cons b' w =>
        obtain ⟨a', r', hb⟩ := List.exists_cons_of_ne_nil (escapeByte_ne_nil b')
        rw [List.flatMap_cons, hb, List.nil_append, List.append_assoc] at hs
        obtain ⟨rfl, rfl⟩ := List.cons.inj hs
        obtain ⟨⟨w', hw⟩, hz⟩ := ih (hb ▸ List.suffix_cons _ _) rfl h
        exact ⟨⟨b' :: w', by rw [hw, List.flatMap_cons, hb]; simp⟩, hz⟩
  | hit s kept rest hm ih =>
    obtain ⟨hkept, x, rfl, hx⟩ := R.firstMatch_eq_some hm
    obtain ⟨t, ht, rfl⟩ := R.tailRest_eq_some hx
    obtain ⟨hq, c, y, rfl, hy⟩ := hR.head kept hkept
    obtain ⟨u, w', hu, rfl, hrest⟩ := text_of_ends_inside hr hy hq hs.symm
    have hspans : R.spans (c ++ [y] ++ (t ++ rest)) = t :: R.spans rest := by
      rw [← List.append_assoc] at hm ⊢
      exact R.spans_hit hm
    rw [hspans] at h
    have htext := h t List.mem_cons_self
    obtain ⟨t', rfl⟩ := htext
    obtain ⟨w', rfl, rfl⟩ := text_append hrest
    obtain ⟨⟨w'', hw⟩, hz⟩ := ih (r := []) (b := b) List.nil_suffix rfl
      (fun t ht => h t (List.mem_cons_of_mem _ ht))
    obtain ⟨v, hv⟩ := hR.tail _ ht ⟨t', rfl⟩
    refine ⟨⟨u ++ (v ++ w''), ?_⟩, hz⟩
    rw [R.replaceAll_hit hm, hw, hu, hv]
    simp [List.flatMap_append]

end Kasli.Json
