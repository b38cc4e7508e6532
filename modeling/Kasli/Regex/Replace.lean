import Kasli.Regex.Pattern
import Mathlib.Algebra.Order.Group.Nat
import Mathlib.Data.List.TakeDrop
import Mathlib.Tactic.Common

/-! Replacing every match of a rule. A rule `(head)tail` is replaced by what its
head captured and a constant. The scan is leftmost and does not overlap: at each
position the first split of head and tail is taken, and a position without one is
copied. `replaceAll_uniform` is the frame rule of the scan: if no head reaches from
a context into the text after it, and no tail tells the admissible texts apart, then
the context either swallows the text or leaves it to be scanned on its own. -/

namespace Kasli.Regex

variable {α : Type*}

/-- A match is never empty, because its head consumes something. -/
structure Rule (α : Type*) where
  head : Pattern α
  tail : Pattern α
  replacement : List α
  head_pos : [] ∉ head.Lang

namespace Rule

/-- What follows the first way of matching the tail. -/
def tailRest (R : Rule α) (s : List α) : Option (List α) := (R.tail.splits s).head?.map Prod.snd

/-- The match at the beginning of `s`: what the head captured, and what follows the match. -/
def firstMatch (R : Rule α) (s : List α) : Option (List α × List α) :=
  (R.head.splits s).findSome? fun m => (R.tailRest m.2).map fun r => (m.1, r)

/-- The scan, with the number of characters still covered by the last match. -/
def replaceFrom (R : Rule α) : ℕ → List α → List α
  | _, [] => []
  | k + 1, _ :: s => R.replaceFrom k s
  | 0, a :: s =>
    match R.firstMatch (a :: s) with
    | none => a :: R.replaceFrom 0 s
    | some (kept, rest) => kept ++ R.replacement ++ R.replaceFrom (s.length - rest.length) s

def replaceAll (R : Rule α) (s : List α) : List α := R.replaceFrom 0 s

variable (R : Rule α)

theorem tailRest_eq_some {s r : List α} (h : R.tailRest s = some r) :
    ∃ t ∈ R.tail.Lang, t ++ r = s := by
  obtain ⟨m, hm, rfl⟩ := Option.map_eq_some_iff.mp h
  obtain ⟨hs, ht⟩ := (R.tail.mem_splits s m).mp (List.mem_of_head? hm)
  exact ⟨m.1, ht, hs⟩

theorem firstMatch_eq_some {s kept rest : List α} (h : R.firstMatch s = some (kept, rest)) :
    kept ∈ R.head.Lang ∧ ∃ r, kept ++ r = s ∧ R.tailRest r = some rest := by
  obtain ⟨m, hm, hr⟩ := List.exists_of_findSome?_eq_some h
  obtain ⟨hs, hk⟩ := (R.head.mem_splits s m).mp hm
  obtain ⟨r, ht, he⟩ := Option.map_eq_some_iff.mp hr
  obtain ⟨hk', hr'⟩ := Prod.mk.inj he
  exact ⟨hk' ▸ hk, m.2, hk' ▸ hs, hr' ▸ ht⟩

theorem kept_ne_nil {s kept rest : List α} (h : R.firstMatch s = some (kept, rest)) : kept ≠ [] :=
  fun he => R.head_pos (he ▸ (R.firstMatch_eq_some h).1)

/-- A match covers a nonempty prefix. -/
theorem firstMatch_suffix {s kept rest : List α} (h : R.firstMatch s = some (kept, rest)) :
    ∃ c, c ≠ [] ∧ c ++ rest = s := by
  obtain ⟨-, r, rfl, hr⟩ := R.firstMatch_eq_some h
  obtain ⟨t, -, rfl⟩ := R.tailRest_eq_some hr
  exact ⟨kept ++ t, by simp [R.kept_ne_nil h], by simp⟩

theorem firstMatch_eq_none {s : List α} (h : ∀ c ∈ R.head.Lang, ¬ c <+: s) :
    R.firstMatch s = none := by
  rw [firstMatch, R.head.splits_eq_nil h, List.findSome?_nil]

/-- The match is known once only one capture of the head can be continued. -/
theorem firstMatch_eq_of_unique {s kept r rest : List α} (hk : kept ∈ R.head.Lang)
    (hs : kept ++ r = s) (hr : R.tailRest r = some rest)
    (huniq : ∀ kept' ∈ R.head.Lang, ∀ r', kept' ++ r' = s → R.tailRest r' ≠ none → kept' = kept) :
    R.firstMatch s = some (kept, rest) := by
  rcases hm : R.firstMatch s with _ | ⟨kept', rest'⟩
  · have hnone := List.findSome?_eq_none_iff.mp hm (kept, r) ((R.head.mem_splits s _).mpr ⟨hs, hk⟩)
    simp [hr] at hnone
  · obtain ⟨hk', r', hs', hr'⟩ := R.firstMatch_eq_some hm
    obtain rfl := huniq kept' hk' r' hs' (by simp [hr'])
    obtain rfl : r = r' := List.append_cancel_left (hs.trans hs'.symm)
    rw [Option.some.inj (hr.symm.trans hr')]

theorem replaceFrom_eq_drop (k : ℕ) (s : List α) : R.replaceFrom k s = R.replaceAll (s.drop k) := by
  induction s generalizing k with
  | nil => simp [replaceFrom, replaceAll]
  | cons a s ih =>
    cases k with
    | zero => rfl
    | succ k => simp only [replaceFrom, ih, List.drop_succ_cons]

@[simp] theorem replaceAll_nil : R.replaceAll [] = [] := rfl

theorem replaceAll_skip {a : α} {s : List α} (h : R.firstMatch (a :: s) = none) :
    R.replaceAll (a :: s) = a :: R.replaceAll s := by
  simp only [replaceAll, replaceFrom, h]

theorem replaceAll_hit {s kept rest : List α} (h : R.firstMatch s = some (kept, rest)) :
    R.replaceAll s = kept ++ R.replacement ++ R.replaceAll rest := by
  obtain ⟨c, hne, rfl⟩ := R.firstMatch_suffix h
  obtain ⟨a, c, rfl⟩ := List.exists_cons_of_ne_nil hne
  rw [List.cons_append] at h
  simp only [List.cons_append, replaceAll, replaceFrom, h]
  rw [replaceFrom_eq_drop]
  simp [replaceAll]

/-- The induction of the scan: a copied position, or a match. -/
theorem scan_induction {motive : List α → Prop} (nil : motive [])
    (skip : ∀ a s, R.firstMatch (a :: s) = none → motive s → motive (a :: s))
    (hit : ∀ s kept rest, R.firstMatch s = some (kept, rest) → motive rest → motive s)
    (s : List α) : motive s := by
  induction hn : s.length using Nat.strong_induction_on generalizing s with
  | _ n ih =>
    rcases hm : R.firstMatch s with _ | ⟨kept, rest⟩
    · rcases s with _ | ⟨a, s⟩
      · exact nil
      · exact skip a s hm (ih s.length (by simp [← hn]) s rfl)
    · obtain ⟨c, hne, rfl⟩ := R.firstMatch_suffix hm
      have hpos := List.length_pos_of_ne_nil hne
      rw [List.length_append] at hn
      exact hit _ kept rest hm (ih rest.length (by omega) rest rfl)

theorem head?_replaceAll (s : List α) : (R.replaceAll s).head? = s.head? := by
  cases hm : R.firstMatch s with
  | none =>
    cases s with
    | nil => rfl
    | cons a s =>
      rw [R.replaceAll_skip hm]
      rfl
  | some m =>
    obtain ⟨-, r, hs, -⟩ := R.firstMatch_eq_some hm
    obtain ⟨a, c, hc⟩ := List.exists_cons_of_ne_nil (R.kept_ne_nil hm)
    rw [R.replaceAll_hit hm, ← hs, hc]
    rfl

/-- Nothing new comes in but the replacement. -/
theorem mem_replaceAll {s : List α} {a : α} (h : a ∈ R.replaceAll s) :
    a ∈ s ∨ a ∈ R.replacement := by
  induction s using R.scan_induction with
  | nil => exact .inl h
  | skip b s hm ih =>
    rw [R.replaceAll_skip hm] at h
    rcases List.mem_cons.mp h with rfl | h
    · exact .inl List.mem_cons_self
    · exact (ih h).imp (List.mem_cons_of_mem b) id
  | hit s kept rest hm ih =>
    rw [R.replaceAll_hit hm, List.mem_append, List.mem_append] at h
    obtain ⟨-, r, rfl, hr⟩ := R.firstMatch_eq_some hm
    obtain ⟨t, -, rfl⟩ := R.tailRest_eq_some hr
    rcases h with (h | h) | h
    · exact .inl (List.mem_append_left _ h)
    · exact .inr h
    · exact (ih h).imp (fun h => List.mem_append_right _ (List.mem_append_right _ h)) id

/-- A stretch of positions without a match is copied. -/
theorem replaceAll_append_of_none {s t : List α}
    (h : ∀ s', s' <:+ s → s' ≠ [] → R.firstMatch (s' ++ t) = none) :
    R.replaceAll (s ++ t) = s ++ R.replaceAll t := by
  induction s with
  | nil => rfl
  | cons a s ih =>
    have ha : R.firstMatch (a :: (s ++ t)) = none := h (a :: s) List.suffix_rfl (by simp)
    rw [List.cons_append, R.replaceAll_skip ha, ih fun s' hs =>
      h s' (hs.trans (List.suffix_cons a s)), List.cons_append]

/-! ### The frame rule -/

/-- After `r` the tail reads all texts of `W` the same way: it fails, it ends within `r`, or it
swallows the text and leaves the same rest. -/
def TailUniform (W : Set (List α)) (r : List α) : Prop :=
  (∀ w ∈ W, R.tailRest (r ++ w) = none) ∨
    (∃ r', r' <:+ r ∧ ∀ w ∈ W, R.tailRest (r ++ w) = some (r' ++ w)) ∨
    ∃ y, ∀ w ∈ W, R.tailRest (r ++ w) = some y

/-- No head that starts in `X` consumes part of the text after it. -/
def HeadLocal (W : Set (List α)) (X : List α) : Prop :=
  ∀ A, A <:+ X → A ≠ [] → ∀ w ∈ W, ∀ c ∈ R.head.Lang, c <+: A ++ w → c.length ≤ A.length

variable {R} {W : Set (List α)}

/-- Uniform tails make the choice among the splits of a context uniform. -/
theorem findSome?_uniform {X : List α} (htail : ∀ r, r <:+ X → R.TailUniform W r)
    (l : List (List α × List α)) (hl : ∀ m ∈ l, m.2.length < X.length ∧ m.2 <:+ X) :
    (∀ w ∈ W, (l.findSome? fun m => (R.tailRest (m.2 ++ w)).map fun r => (m.1, r)) = none) ∨
      (∃ kept X', X'.length < X.length ∧ X' <:+ X ∧ ∀ w ∈ W,
        (l.findSome? fun m => (R.tailRest (m.2 ++ w)).map fun r => (m.1, r)) =
          some (kept, X' ++ w)) ∨
      ∃ kept y, ∀ w ∈ W,
        (l.findSome? fun m => (R.tailRest (m.2 ++ w)).map fun r => (m.1, r)) = some (kept, y) := by
  induction l with
  | nil => exact Or.inl fun w _ => rfl
  | cons m l ih =>
    obtain ⟨hlt, hsuf⟩ := hl m (by simp)
    rcases htail m.2 hsuf with hnone | ⟨r', hr', hsome⟩ | ⟨y, hsome⟩
    · rcases ih fun n hn => hl n (by simp [hn]) with h | ⟨kept, X', hlt', hsuf', h⟩ | ⟨kept, y, h⟩
      · exact Or.inl fun w hw => by simp [hnone w hw, h w hw]
      · exact Or.inr (Or.inl ⟨kept, X', hlt', hsuf', fun w hw => by simp [hnone w hw, h w hw]⟩)
      · exact Or.inr (Or.inr ⟨kept, y, fun w hw => by simp [hnone w hw, h w hw]⟩)
    · exact Or.inr (Or.inl ⟨m.1, r', lt_of_le_of_lt hr'.length_le hlt, hr'.trans hsuf,
        fun w hw => by simp [hsome w hw]⟩)
    · exact Or.inr (Or.inr ⟨m.1, y, fun w hw => by simp [hsome w hw]⟩)

theorem firstMatch_uniform {X : List α} (hne : X ≠ []) (hloc : R.HeadLocal W X)
    (htail : ∀ r, r <:+ X → R.TailUniform W r) :
    (∀ w ∈ W, R.firstMatch (X ++ w) = none) ∨
      (∃ kept X', X'.length < X.length ∧ X' <:+ X ∧
        ∀ w ∈ W, R.firstMatch (X ++ w) = some (kept, X' ++ w)) ∨
      ∃ kept y, ∀ w ∈ W, R.firstMatch (X ++ w) = some (kept, y) := by
  have hsplit : ∀ w ∈ W, R.firstMatch (X ++ w) =
      (R.head.splits X).findSome? fun m => (R.tailRest (m.2 ++ w)).map fun r => (m.1, r) := by
    intro w hw
    rw [firstMatch, R.head.splits_append_local X w (hloc X List.suffix_rfl hne w hw),
      List.findSome?_map]
    rfl
  have hparts : ∀ m ∈ R.head.splits X, m.2.length < X.length ∧ m.2 <:+ X := by
    intro m hm
    obtain ⟨hs, hk⟩ := (R.head.mem_splits X m).mp hm
    have hpos : 0 < m.1.length := List.length_pos_of_ne_nil fun he => R.head_pos (he ▸ hk)
    have hlen := congrArg List.length hs
    rw [List.length_append] at hlen
    exact ⟨by omega, m.1, hs⟩
  rcases findSome?_uniform htail _ hparts with h | ⟨kept, X', hlt, hsuf, h⟩ | ⟨kept, y, h⟩
  · exact Or.inl fun w hw => (hsplit w hw).trans (h w hw)
  · exact Or.inr (Or.inl ⟨kept, X', hlt, hsuf, fun w hw => (hsplit w hw).trans (h w hw)⟩)
  · exact Or.inr (Or.inr ⟨kept, y, fun w hw => (hsplit w hw).trans (h w hw)⟩)

theorem HeadLocal.suffix {X X' : List α} (h : R.HeadLocal W X) (hs : X' <:+ X) : R.HeadLocal W X' :=
  fun A hA => h A (hA.trans hs)

/-- The context swallows the text after it, or the text is scanned on its own. -/
theorem replaceAll_uniform (X : List α) (hloc : R.HeadLocal W X)
    (htail : ∀ r, r <:+ X → R.TailUniform W r) :
    (∃ out, ∀ w ∈ W, R.replaceAll (X ++ w) = out) ∨
      ∃ out, ∀ w ∈ W, R.replaceAll (X ++ w) = out ++ R.replaceAll w := by
  induction hn : X.length using Nat.strong_induction_on generalizing X with
  | _ n ih =>
    rcases eq_or_ne X [] with rfl | hne
    · exact Or.inr ⟨[], fun w _ => rfl⟩
    rcases firstMatch_uniform hne hloc htail with h | ⟨kept, X', hlt, hsuf, h⟩ | ⟨kept, y, h⟩
    · obtain ⟨a, X, rfl⟩ := List.exists_cons_of_ne_nil hne
      have hs : X <:+ a :: X := List.suffix_cons a X
      rcases ih X.length (by simp [← hn]) X (hloc.suffix hs) (fun r hr => htail r (hr.trans hs)) rfl
        with ⟨out, ho⟩ | ⟨out, ho⟩
      · exact Or.inl ⟨a :: out, fun w hw =>
          (R.replaceAll_skip (h w hw)).trans (congrArg (a :: ·) (ho w hw))⟩
      · exact Or.inr ⟨a :: out, fun w hw =>
          (R.replaceAll_skip (h w hw)).trans (congrArg (a :: ·) (ho w hw))⟩
    · rcases ih X'.length (by omega) X' (hloc.suffix hsuf) (fun r hr => htail r (hr.trans hsuf)) rfl
        with ⟨out, ho⟩ | ⟨out, ho⟩
      · refine Or.inl ⟨kept ++ R.replacement ++ out, fun w hw => ?_⟩
        rw [R.replaceAll_hit (h w hw), ho w hw]
      · refine Or.inr ⟨kept ++ R.replacement ++ out, fun w hw => ?_⟩
        rw [R.replaceAll_hit (h w hw), ho w hw, List.append_assoc _ out]
    · exact Or.inl ⟨kept ++ R.replacement ++ R.replaceAll y, fun w hw => R.replaceAll_hit (h w hw)⟩

end Rule

end Kasli.Regex
