import Mathlib.Data.List.Basic
import Mathlib.Data.Set.NAry
import Mathlib.Tactic.Common

/-! Backtracking pattern matching over an arbitrary alphabet. A pattern is read as
a language, which says what it may consume, and as an ordered list of splits,
which says in which order a backtracking matcher tries the ways of consuming a
prefix: the left alternative first, the longest repetition first. Repetition is of
one character class. `mem_splits` connects the two readings. -/

namespace Kasli.Regex

variable {α : Type*}

inductive Pattern (α : Type*)
  | empty
  | cls (p : α → Bool)
  | seq (P Q : Pattern α)
  | alt (P Q : Pattern α)
  | many (p : α → Bool)

namespace Pattern

/-- One or more characters of a class, greedily. -/
def plus (p : α → Bool) : Pattern α := .seq (.cls p) (.many p)

/-- An optional character of a class, greedily. -/
def opt (p : α → Bool) : Pattern α := .alt (.cls p) .empty

/-- The classes one after the other. -/
def word : List (α → Bool) → Pattern α
  | [] => .empty
  | p :: ps => .seq (.cls p) (word ps)

/-- What a pattern may consume. -/
def Lang : Pattern α → Set (List α)
  | .empty => {[]}
  | .cls p => {c | ∃ a, p a ∧ c = [a]}
  | .seq P Q => Set.image2 (· ++ ·) P.Lang Q.Lang
  | .alt P Q => P.Lang ∪ Q.Lang
  | .many p => {c | ∀ a ∈ c, p a}

/-- The splits of a list after a run of a class, the longest run first. -/
def spans (p : α → Bool) : List α → List (List α × List α)
  | [] => [([], [])]
  | a :: s => if p a then (spans p s).map (fun m => (a :: m.1, m.2)) ++
      [([], a :: s)] else [([], a :: s)]

/-- The ways of consuming a prefix, in the order a backtracking matcher tries them. -/
def splits : Pattern α → List α → List (List α × List α)
  | .empty, s => [([], s)]
  | .cls _, [] => []
  | .cls p, a :: s => if p a then [([a], s)] else []
  | .seq P Q, s => (P.splits s).flatMap fun m => (Q.splits m.2).map fun n => (m.1 ++ n.1, n.2)
  | .alt P Q, s => P.splits s ++ Q.splits s
  | .many p, s => spans p s

theorem mem_spans (p : α → Bool) (s : List α) (m : List α × List α) :
    m ∈ spans p s ↔ m.1 ++ m.2 = s ∧ ∀ a ∈ m.1, p a := by
  induction s generalizing m with
  | nil =>
    obtain ⟨c, r⟩ := m
    simp only [spans, List.mem_singleton, Prod.mk.injEq, List.append_eq_nil_iff]
    exact ⟨fun h => ⟨h, by simp [h.1]⟩, fun h => h.1⟩
  | cons b s ih =>
    obtain ⟨c, r⟩ := m
    rcases c with _ | ⟨a, c⟩
    · simp only [spans]
      split_ifs <;> simp
    · by_cases hb : p b
      · simp only [spans, hb, ↓reduceIte, List.mem_append, List.mem_map, ih, List.mem_singleton]
        simp only [Prod.mk.injEq, List.cons.injEq, Prod.exists, reduceCtorEq, false_and, or_false,
          List.cons_append, List.mem_cons, forall_eq_or_imp]
        constructor
        · rintro ⟨c', r', ⟨rfl, hc⟩, ⟨rfl, rfl⟩, rfl⟩
          exact ⟨⟨rfl, rfl⟩, hb, hc⟩
        · rintro ⟨⟨rfl, rfl⟩, -, hc⟩
          exact ⟨c, r, ⟨rfl, hc⟩, ⟨rfl, rfl⟩, rfl⟩
      · have hc : (a :: c, r) ∉ spans p (b :: s) := by simp [spans, hb]
        refine ⟨fun h => absurd h hc, ?_⟩
        rintro ⟨h, hp⟩
        rw [List.cons_append, List.cons.injEq] at h
        exact absurd (h.1 ▸ hp a (by simp)) hb

/-- The matcher tries exactly the prefixes in the language. -/
theorem mem_splits (P : Pattern α) (s : List α) (m : List α × List α) :
    m ∈ P.splits s ↔ m.1 ++ m.2 = s ∧ m.1 ∈ P.Lang := by
  induction P generalizing s m with
  | empty =>
    obtain ⟨c, r⟩ := m
    simp only [splits, Lang, List.mem_singleton, Prod.mk.injEq, Set.mem_singleton_iff]
    constructor
    · rintro ⟨rfl, rfl⟩; exact ⟨rfl, rfl⟩
    · rintro ⟨rfl, rfl⟩; exact ⟨rfl, rfl⟩
  | cls p =>
    obtain ⟨c, r⟩ := m
    cases s with
    | nil =>
      simp only [splits, Lang, List.not_mem_nil, Set.mem_ofPred_eq,
        List.append_eq_nil_iff, false_iff]
      rintro ⟨⟨rfl, -⟩, a, -, h⟩
      simp at h
    | cons b s =>
      simp only [splits, Lang, Set.mem_ofPred_eq]
      by_cases hb : p b
      · simp only [hb, ↓reduceIte, List.mem_singleton, Prod.mk.injEq]
        constructor
        · rintro ⟨rfl, rfl⟩; exact ⟨rfl, b, hb, rfl⟩
        · rintro ⟨h, a, ha, rfl⟩
          simp only [List.cons_append, List.nil_append, List.cons.injEq] at h
          exact ⟨by rw [h.1], h.2⟩
      · simp only [hb, Bool.false_eq_true, ↓reduceIte, List.not_mem_nil, false_iff]
        rintro ⟨h, a, ha, rfl⟩
        simp only [List.cons_append, List.nil_append, List.cons.injEq] at h
        exact hb (h.1 ▸ ha)
  | seq P Q ihP ihQ =>
    obtain ⟨c, r⟩ := m
    simp only [splits, Lang, List.mem_flatMap, List.mem_map, ihP, ihQ, Set.mem_image2, Prod.exists,
      Prod.mk.injEq]
    constructor
    · rintro ⟨c₁, r₁, ⟨rfl, h₁⟩, c₂, r₂, ⟨rfl, h₂⟩, rfl, rfl⟩
      exact ⟨by simp, c₁, h₁, c₂, h₂, rfl⟩
    · rintro ⟨rfl, c₁, h₁, c₂, h₂, rfl⟩
      exact ⟨c₁, c₂ ++ r, ⟨by simp, h₁⟩, c₂, r, ⟨rfl, h₂⟩, rfl, rfl⟩
  | alt P Q ihP ihQ =>
    simp only [splits, Lang, List.mem_append, ihP, ihQ, Set.mem_union]
    tauto
  | many p => exact mem_spans p s m

@[simp] theorem mem_seq {P Q : Pattern α} {c : List α} :
    c ∈ (seq P Q).Lang ↔ ∃ u ∈ P.Lang, ∃ v ∈ Q.Lang, u ++ v = c := Iff.rfl

@[simp] theorem mem_alt {P Q : Pattern α} {c : List α} :
    c ∈ (alt P Q).Lang ↔ c ∈ P.Lang ∨ c ∈ Q.Lang := Iff.rfl

@[simp] theorem mem_many {p : α → Bool} {c : List α} :
    c ∈ (many p).Lang ↔ ∀ a ∈ c, p a := Iff.rfl

@[simp] theorem mem_cls {p : α → Bool} {c : List α} : c ∈ (cls p).Lang ↔ ∃ a, p a ∧
    c = [a] := Iff.rfl

@[simp] theorem mem_empty {c : List α} : c ∈ (empty : Pattern α).Lang ↔ c = [] := Iff.rfl

theorem mem_word_cons {p : α → Bool} {ps : List (α → Bool)} {c : List α} :
    c ∈ (word (p :: ps)).Lang ↔ ∃ a d, p a ∧ d ∈ (word ps).Lang ∧ c = a :: d := by
  simp only [word, mem_seq, mem_cls]
  constructor
  · rintro ⟨_, ⟨a, ha, rfl⟩, d, hd, rfl⟩
    exact ⟨a, d, ha, hd, rfl⟩
  · rintro ⟨a, d, ha, hd, rfl⟩
    exact ⟨[a], ⟨a, ha, rfl⟩, d, hd, rfl⟩

theorem splits_eq_nil (P : Pattern α) {s : List α} (h : ∀ c ∈ P.Lang, ¬ c <+: s) :
    P.splits s = [] := by
  apply List.eq_nil_iff_forall_not_mem.mpr
  intro m hm
  obtain ⟨hs, hc⟩ := (mem_splits P s m).mp hm
  exact h m.1 hc ⟨m.2, hs⟩

/-! ### Matching does not look past what it consumes -/

theorem spans_append_filter (p : α → Bool) (s t : List α) :
    (spans p (s ++ t)).filter (fun m => m.1.length ≤ s.length) =
      (spans p s).map fun m => (m.1, m.2 ++ t) := by
  induction s with
  | nil =>
    cases t with
    | nil => simp [spans]
    | cons a t =>
      simp only [List.nil_append, spans]
      split_ifs <;> simp [List.filter_map, Function.comp_def]
  | cons a s ih =>
    simp only [List.cons_append, spans]
    split_ifs with ha
    · simp only [List.filter_append, List.filter_map, Function.comp_def, List.length_cons,
        Nat.add_le_add_iff_right, ih]
      simp
    · simp

theorem flatMap_eq_flatMap_filter {β γ : Type*} (l : List β) (p : β → Bool) (g : β → List γ)
    (h : ∀ m ∈ l, p m = false → g m = []) : l.flatMap g = (l.filter p).flatMap g := by
  induction l with
  | nil => rfl
  | cons m l ih =>
    have ht := ih fun n hn => h n (List.mem_cons_of_mem m hn)
    cases hm : p m with
    | true => simp [hm, ht]
    | false => simp [hm, ht, h m (by simp) hm]

/-- The prefixes of `s ++ t` that end within `s` are tried in the order in which `s` alone would. -/
theorem splits_append_filter (P : Pattern α) (s t : List α) :
    (P.splits (s ++ t)).filter (fun m => m.1.length ≤ s.length) =
      (P.splits s).map fun m => (m.1, m.2 ++ t) := by
  induction P generalizing s with
  | empty => simp [splits]
  | cls p =>
    cases s with
    | nil =>
      cases t with
      | nil => simp [splits]
      | cons a t => simp only [List.nil_append, splits]; split_ifs <;> simp
    | cons a s => simp only [List.cons_append, splits]; split_ifs <;> simp
  | many p => exact spans_append_filter p s t
  | alt P Q ihP ihQ => simp only [splits, List.filter_append, ihP, ihQ, List.map_append]
  | seq P Q ihP ihQ =>
    simp only [splits, List.filter_flatMap, List.map_flatMap]
    -- a first part that ends past `s` contributes nothing, the others are those of `s`
    rw [flatMap_eq_flatMap_filter _ (fun m => decide (m.1.length ≤ s.length)), ihP,
      List.flatMap_map]
    · apply List.flatMap_congr
      intro m hm
      have hlen := congrArg List.length ((mem_splits P s m).mp hm).1
      rw [List.length_append] at hlen
      have hfit : ((fun m : List α × List α => decide (m.1.length ≤ s.length)) ∘
          fun n : List α × List α => (m.1 ++ n.1, n.2)) =
          fun n => decide (n.1.length ≤ m.2.length) := by
        funext n
        simp only [Function.comp_apply, List.length_append, decide_eq_decide]
        omega
      rw [List.filter_map, hfit, ihQ, List.map_map, List.map_map]
      rfl
    · intro m _ hm
      simp only [decide_eq_false_iff_not] at hm
      simp only [List.filter_eq_nil_iff, List.mem_map, decide_eq_true_eq]
      rintro _ ⟨n, -, rfl⟩
      simp only [List.length_append]
      omega

/-- When nothing the pattern consumes reaches past `s`, what follows `s` is not looked at. -/
theorem splits_append_local (P : Pattern α) (s t : List α)
    (h : ∀ c ∈ P.Lang, c <+: s ++ t → c.length ≤ s.length) :
    P.splits (s ++ t) = (P.splits s).map fun m => (m.1, m.2 ++ t) := by
  rw [← splits_append_filter, List.filter_eq_self.mpr]
  intro m hm
  obtain ⟨hs, hc⟩ := (mem_splits P _ m).mp hm
  exact decide_eq_true (h m.1 hc ⟨m.2, hs⟩)

end Pattern

end Kasli.Regex
