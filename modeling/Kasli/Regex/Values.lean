import Kasli.Regex.Tails

/-! Rules that put a mark in the place of a value. Where a pass first changes a text, a value that
is not the mark stood behind a character that opens values, and now the mark stands there with
what ends a value behind it. Of passes one after another the same is said: the change that is
the first in the text is seen in what they all leave. So a text and what becomes of it do not
differ in a last few characters that neither open a value nor end one. -/

namespace Kasli.Regex

variable {α : Type*} {mark : List α}

/-- The characters behind which a value stands, and those that it is made of. -/
structure ValueKind (mark : List α) where
  opens : α → Bool
  holds : α → Bool
  mark_holds : ∀ a ∈ mark, holds a
  mark_opens : ∀ a ∈ mark, opens a = false

variable {k k' : ValueKind mark} {s t t' before rest after : List α}

/-- Behind `before` the mark has taken the place of the value that `rest` begins with. -/
structure ChangesAt (k : ValueKind mark) (before rest after : List α) : Prop where
  opened : ∃ a ∈ before.getLast?, k.opens a
  ended : ∀ a ∈ after.head?, k.holds a = false
  value : rest.takeWhile k.holds ≠ mark
  last : (∀ a ∈ rest, k.holds a) → after = []
  chars : ∀ a ∈ after, a ∈ rest ∨ a ∈ mark

/-- The texts first differ in a value. -/
def Changes (k : ValueKind mark) (s t : List α) : Prop :=
  ∃ before rest after, s = before ++ rest ∧ t = before ++ (mark ++ after) ∧
    ChangesAt k before rest after

theorem Changes.append (h : Changes k s t) (p : List α) : Changes k (p ++ s) (p ++ t) := by
  obtain ⟨before, rest, after, rfl, rfl, hat⟩ := h
  obtain ⟨a, ha, hopens⟩ := hat.opened
  refine ⟨p ++ before, rest, after, by simp, by simp, { hat with opened := ⟨a, ?_, hopens⟩ }⟩
  rw [List.getLast?_append, Option.mem_def.mp ha]
  rfl

theorem ValueKind.takeWhile_mark (k : ValueKind mark) (h : ∀ a ∈ after.head?, k.holds a = false) :
    (mark ++ after).takeWhile k.holds = mark :=
  takeWhile_run k.mark_holds h

/-- The mark does not end with a character that opens a value. -/
theorem ValueKind.not_opened (k : ValueKind mark) {w : List α} (h : ∃ a ∈ w.getLast?, k.opens a) :
    ¬ w <+: mark := by
  rintro ⟨v, hv⟩
  obtain ⟨a, ha, hopens⟩ := h
  have hmem : a ∈ mark := hv ▸ List.mem_append_left v (List.mem_of_getLast? ha)
  rw [k.mark_opens a hmem] at hopens
  cases hopens

/-! ### One pass after another -/

/-- Where values of both kinds can stand, what ends the one ends the other. -/
def EndsAlike (k k' : ValueKind mark) : Prop :=
  ∀ a, k.opens a → k'.opens a → ∀ b, k.holds b = false → k'.holds b = false

theorem getLast?_opened {w : List α} (h : ∃ a ∈ (before ++ w).getLast?, k.opens a) (hw : w ≠ []) :
    ∃ a ∈ w.getLast?, k.opens a := by
  rwa [List.getLast?_append_of_ne_nil before hw] at h

/-- A later pass that changes the text further on. -/
theorem ChangesAt.later (h : ChangesAt k before rest after) {w u z : List α}
    (h' : ChangesAt k' (before ++ w) u z) (hw : w ≠ []) (heq : mark ++ after = w ++ u) :
    ∃ v, w = mark ++ v ∧ ChangesAt k before rest (v ++ (mark ++ z)) := by
  have hopened := getLast?_opened h'.opened hw
  rcases List.append_eq_append_iff.mp heq with ⟨v, rfl, rfl⟩ | ⟨v, hv, -⟩
  · have hv : v ≠ [] := by
      rintro rfl
      rw [List.append_nil] at hopened
      exact k'.not_opened hopened List.prefix_rfl
    refine ⟨v, rfl, h.opened, ?_, h.value, ?_, ?_⟩
    · intro a ha
      rw [List.head?_append_of_ne_nil v hv] at ha
      exact h.ended a (by rwa [List.head?_append_of_ne_nil v hv])
    · intro hall
      exact absurd (List.append_eq_nil_iff.mp (h.last hall)).1 hv
    · intro a ha
      rw [List.mem_append, List.mem_append] at ha
      rcases ha with ha | ha | ha
      · exact h.chars a (List.mem_append_left u ha)
      · exact .inr ha
      · rcases h'.chars a ha with hu | hmark
        · exact h.chars a (List.mem_append_right v hu)
        · exact .inr hmark
  · exact absurd ⟨v, hv.symm⟩ (k'.not_opened hopened)

/-- A later pass that changes the text before. -/
theorem ChangesAt.earlier {w z : List α} (h : ChangesAt k (before ++ w) rest after)
    (h' : ChangesAt k' before (w ++ (mark ++ after)) z) (hw : w ≠ []) :
    ChangesAt k' before (w ++ rest) z := by
  have hopened := getLast?_opened h.opened hw
  have hchars : ∀ a ∈ w ++ (mark ++ after), a ∈ w ++ rest ∨ a ∈ mark := by
    intro a ha
    rw [List.mem_append, List.mem_append] at ha
    rcases ha with ha | ha | ha
    · exact .inl (List.mem_append_left rest ha)
    · exact .inr ha
    · exact (h.chars a ha).imp (List.mem_append_right w) id
  refine ⟨h'.opened, h'.ended, ?_, ?_, ?_⟩
  · intro hvalue
    by_cases hall : ∀ a ∈ w, k'.holds a
    · -- the value would go past the character that opened the other one
      rw [List.takeWhile_append_of_pos hall] at hvalue
      exact k.not_opened hopened ⟨_, hvalue⟩
    · have hlength : (w.takeWhile k'.holds).length ≠ w.length := by
        intro hlength
        have hself := (List.takeWhile_prefix k'.holds).eq_of_length hlength
        exact hall fun a ha => List.mem_takeWhile_imp (hself ▸ ha)
      have hfirst := h'.value
      rw [List.takeWhile_append, if_neg hlength] at hvalue hfirst
      exact hfirst hvalue
  · intro hall
    refine h'.last fun a ha => ?_
    rcases hchars a ha with ha | ha
    · exact hall a ha
    · exact k'.mark_holds a ha
  · intro a ha
    rcases h'.chars a ha with ha | ha
    · exact hchars a ha
    · exact .inr ha

/-- No pass changes the mark that another has just put. -/
theorem ChangesAt.not_again {z : List α} (h : ChangesAt k before rest after)
    (h' : ChangesAt k' before (mark ++ after) z) (hk : EndsAlike k k') : False := by
  obtain ⟨a, ha, hopens⟩ := h.opened
  obtain ⟨b, hb, hopens'⟩ := h'.opened
  obtain rfl : a = b := Option.some.inj (ha.symm.trans hb)
  exact h'.value (k'.takeWhile_mark fun b hb => hk a hopens hopens' b (h.ended b hb))

/-- The first change of two passes is one of the first or of the second. -/
theorem Changes.trans (h : Changes k s t) (h' : Changes k' t t') (hk : EndsAlike k k') :
    Changes k s t' ∨ Changes k' s t' := by
  obtain ⟨before, rest, after, rfl, rfl, hat⟩ := h
  obtain ⟨before', rest', after', heq, rfl, hat'⟩ := h'
  rcases List.append_eq_append_iff.mp heq with ⟨w, rfl, hw⟩ | ⟨w, rfl, rfl⟩
  · by_cases hnil : w = []
    · subst hnil
      rw [List.nil_append] at hw
      rw [List.append_nil, ← hw] at hat'
      exact (hat.not_again hat' hk).elim
    · obtain ⟨v, rfl, hlater⟩ := hat.later hat' hnil hw
      exact .inl ⟨before, rest, _, rfl, by simp, hlater⟩
  · by_cases hnil : w = []
    · subst hnil
      rw [List.append_nil] at hat
      rw [List.nil_append] at hat'
      exact (hat.not_again hat' hk).elim
    · exact .inr ⟨before', w ++ rest, after', by simp, rfl, hat.earlier hat' hnil⟩

/-! ### One pass -/

/-- The rule rewrites values of the kind, between `quote`s that stay. -/
structure Rule.Marks (R : Rule α) (k : ValueKind mark) (quote : List α) : Prop where
  replacement : R.replacement = quote ++ (mark ++ quote)
  opens : ∀ c ∈ R.head.Lang, ∃ a ∈ (c ++ quote).getLast?, k.opens a
  tail : ∀ s rest, R.tailRest s = some rest → ∃ v, (∀ a ∈ v, k.holds a) ∧
    (∀ a ∈ (quote ++ rest).head?, k.holds a = false) ∧ s = quote ++ (v ++ (quote ++ rest))

theorem eq_nil_of_forall_holds {l : List α} (hend : ∀ a ∈ l.head?, k.holds a = false)
    (hall : ∀ a ∈ l, k.holds a) : l = [] := by
  cases l with
  | nil => rfl
  | cons a l =>
    have hnot := hend a rfl
    rw [hall a List.mem_cons_self] at hnot
    cases hnot

/-- A match with a value that is not the mark. -/
theorem Rule.Marks.changesAt {R : Rule α} {quote : List α} (h : R.Marks k quote)
    {kept v : List α} (hkept : kept ∈ R.head.Lang) (hv : ∀ a ∈ v, k.holds a)
    (hend : ∀ a ∈ (quote ++ rest).head?, k.holds a = false) (hmark : v ≠ mark) :
    ChangesAt k (kept ++ quote) (v ++ (quote ++ rest)) (quote ++ R.replaceAll rest) where
  opened := h.opens kept hkept
  ended := by
    rw [List.head?_append, R.head?_replaceAll, ← List.head?_append]
    exact hend
  value := by
    rw [takeWhile_run hv hend]
    exact hmark
  last hall := by
    have hnil := eq_nil_of_forall_holds hend fun a ha => hall a (List.mem_append_right v ha)
    obtain ⟨rfl, rfl⟩ := List.append_eq_nil_iff.mp hnil
    rfl
  chars a ha := by
    have hquote (ha : a ∈ quote) : a ∈ v ++ (quote ++ rest) :=
      List.mem_append_right v (List.mem_append_left rest ha)
    rcases List.mem_append.mp ha with ha | ha
    · exact .inl (hquote ha)
    · rcases R.mem_replaceAll ha with ha | ha
      · exact .inl (List.mem_append_right v (List.mem_append_right quote ha))
      · rw [h.replacement, List.mem_append, List.mem_append] at ha
        rcases ha with ha | ha | ha
        · exact .inl (hquote ha)
        · exact .inr ha
        · exact .inl (hquote ha)

/-- A pass leaves the text, or what it changes first is a value. -/
theorem Rule.Marks.replaceAll_eq_or_changes {R : Rule α} {quote : List α} (h : R.Marks k quote)
    (s : List α) : R.replaceAll s = s ∨ Changes k s (R.replaceAll s) := by
  induction s using R.scan_induction with
  | nil => exact .inl rfl
  | skip a s hm ih =>
    rw [R.replaceAll_skip hm]
    rcases ih with ih | ih
    · exact .inl (congrArg (a :: ·) ih)
    · exact .inr (ih.append [a])
  | hit s kept rest hm ih =>
    obtain ⟨hkept, r, rfl, hr⟩ := R.firstMatch_eq_some hm
    obtain ⟨v, hv, hend, rfl⟩ := h.tail r rest hr
    rw [R.replaceAll_hit hm, h.replacement]
    by_cases hmark : v = mark
    · subst hmark
      rcases ih with ih | ih
      · exact .inl (by rw [ih]; simp)
      · refine .inr ?_
        have happend := ih.append (kept ++ (quote ++ (v ++ quote)))
        simpa using happend
    · exact .inr ⟨kept ++ quote, v ++ (quote ++ rest), quote ++ R.replaceAll rest, by simp,
        by simp, h.changesAt hkept hv hend hmark⟩

/-! ### Texts that differ at their end only -/

section

variable {x y m : List α}

/-- The value that was changed is not the mark. -/
theorem ChangesAt.mark_ne {w : List α} (h : ChangesAt k before (mark ++ w ++ s) (w ++ t))
    (hw : w ≠ []) : False := by
  refine h.value ?_
  rw [List.append_assoc]
  refine k.takeWhile_mark fun a ha => h.ended a ?_
  rwa [List.head?_append_of_ne_nil w hw] at ha ⊢

/-- No plain end of a text becomes a longer one. -/
theorem Changes.not_grown (h : Changes k (x ++ m) (x ++ y)) (hholds : ∀ a ∈ m, k.holds a)
    (hopens : ∀ a ∈ m, k.opens a = false) (hmark : mark.length ≤ m.length) :
    y.length ≤ m.length := by
  obtain ⟨before, rest, after, hs, ht, hat⟩ := h
  by_contra hlonger
  rcases List.append_eq_append_iff.mp hs with ⟨w, rfl, rfl⟩ | ⟨w, rfl, rfl⟩
  · -- the change is in the end
    rw [List.append_assoc, List.append_cancel_left_eq] at ht
    have hafter := hat.last fun a ha => hholds a (List.mem_append_right w ha)
    by_cases hw : w = []
    · subst ht hw hafter
      simp only [List.nil_append, List.append_nil] at hlonger hmark
      omega
    · obtain ⟨a, ha, hopen⟩ := getLast?_opened hat.opened hw
      rw [hopens a (List.mem_append_left rest (List.mem_of_getLast? ha))] at hopen
      cases hopen
  · rw [List.append_assoc, List.append_cancel_left_eq] at ht
    have hall (hw : ∀ a ∈ w, k.holds a) : after = [] :=
      hat.last (List.forall_mem_append.mpr ⟨hw, hholds⟩)
    rcases List.append_eq_append_iff.mp ht with ⟨v, hv, rfl⟩ | ⟨v, rfl, rfl⟩
    · -- the change is across
      have hafter := hall fun a ha => k.mark_holds a (hv ▸ List.mem_append_left v ha)
      rw [hv, List.length_append] at hmark
      rw [hafter, List.append_nil] at hlonger
      omega
    · by_cases hv : v = []
      · subst hv
        have hafter := hall (by simpa using k.mark_holds)
        rw [List.nil_append] at hafter
        rw [hafter] at hlonger
        exact hlonger (Nat.zero_le _)
      · exact hat.mark_ne hv

/-- Nothing becomes an end that does not hold the mark and begins as none does. -/
theorem Changes.not_cut (h : Changes k (x ++ y) (x ++ m)) (hm : m ≠ [])
    (hhead : ∀ a ∈ m.head?, k.holds a ∧ a ∉ mark) (hmark : ¬ mark <:+: m) : False := by
  obtain ⟨before, rest, after, hs, ht, hat⟩ := h
  rcases List.append_eq_append_iff.mp ht with ⟨w, rfl, rfl⟩ | ⟨w, rfl, hw⟩
  · exact hmark ⟨w, after, by simp⟩
  · rw [List.append_assoc, List.append_cancel_left_eq] at hs
    subst hs
    obtain ⟨a, m, rfl⟩ := List.exists_cons_of_ne_nil hm
    obtain ⟨hholds, hnot⟩ := hhead a rfl
    rcases List.append_eq_append_iff.mp hw with ⟨v, rfl, rfl⟩ | ⟨v, hv, hv'⟩
    · by_cases hnil : v = []
      · have hended := hat.ended a (by rw [hnil]; rfl)
        rw [hholds] at hended
        cases hended
      · exact hat.mark_ne hnil
    · cases v with
      | nil =>
        have hended := hat.ended a (by rw [← List.nil_append after, ← hv']; rfl)
        rw [hholds] at hended
        cases hended
      | cons b v =>
        obtain ⟨rfl, -⟩ := List.cons.inj hv'
        exact hnot (hv ▸ List.mem_append_right w List.mem_cons_self)

end

end Kasli.Regex
