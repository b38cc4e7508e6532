import Kasli.Regex.Replace

/-! Texts in which a rule has nothing left to replace. A text is settled for a rule when every
match, wherever it begins, has the replacement in it already; then the scan changes nothing. Two
rules that keep apart do not disturb each other: no head begins within a head or a replacement of
the other, so what one of them finds in a text the other has rewritten was there before. A rule
settles what it rewrites, and another rule leaves it settled. -/

namespace Kasli.Regex.Rule

variable {α : Type*} {R R' : Rule α} {s u u' kept rest : List α}

def Settled (R : Rule α) (s : List α) : Prop :=
  ∀ u, u <:+ s → ∀ kept rest, R.firstMatch u = some (kept, rest) →
    u = kept ++ R.replacement ++ rest

theorem Settled.replaceAll_eq (h : R.Settled s) : R.replaceAll s = s := by
  induction s using R.scan_induction with
  | nil => rfl
  | skip a s hm ih =>
    rw [R.replaceAll_skip hm, ih fun u hu => h u (hu.trans (List.suffix_cons a s))]
  | hit s kept rest hm ih =>
    have hs := h s List.suffix_rfl kept rest hm
    have hrest : rest <:+ s := hs ▸ List.suffix_append _ rest
    rw [R.replaceAll_hit hm, ih fun u hu => h u (hu.trans hrest), ← hs]

/-! ### Rules that keep apart -/

/-- No head of `R'` begins within a head of `R`. -/
def Apart (R R' : Rule α) : Prop :=
  ∀ p k, p ≠ [] → k ≠ [] → p ++ k ∈ R.head.Lang → ∀ c ∈ R'.head.Lang, ∀ y z, k ++ y ≠ c ++ z

/-- No head of `R` begins within the replacement of `R'` or goes on into it. -/
structure Clear (R R' : Rule α) : Prop where
  within : ∀ k, k <:+ R'.replacement → k ≠ [] → ∀ c ∈ R.head.Lang, ∀ y z, k ++ y ≠ c ++ z
  into : ∃ a rep, R'.replacement = a :: rep ∧ ∀ c ∈ R.head.Lang, a ∉ c

/-- Where a head stands in a text that was rewritten, a scan began. -/
theorem exists_scan (happart : Apart R' R) (hclear : Clear R R') (hkept : kept ∈ R.head.Lang)
    (hpre : kept <+: u') (hsuffix : u' <:+ R'.replaceAll s) :
    ∃ u, u <:+ s ∧ u' = R'.replaceAll u := by
  obtain ⟨z, hz⟩ := hpre
  induction s using R'.scan_induction with
  | nil => exact ⟨[], List.suffix_rfl, List.suffix_nil.mp hsuffix⟩
  | skip a s hm ih =>
    rw [R'.replaceAll_skip hm, List.suffix_cons_iff] at hsuffix
    rcases hsuffix with h | h
    · exact ⟨a :: s, List.suffix_rfl, by rw [h, R'.replaceAll_skip hm]⟩
    · obtain ⟨u, hu, heq⟩ := ih h
      exact ⟨u, hu.trans (List.suffix_cons a s), heq⟩
  | hit s c rest hm ih =>
    have hrest : rest <:+ s := by
      obtain ⟨d, -, hd⟩ := R'.firstMatch_suffix hm
      exact ⟨d, hd⟩
    have hwithin (k : List α) (hk : k <:+ R'.replacement) (hu : u' = k ++ R'.replaceAll rest) :
        k = [] := by
      by_contra hne
      exact hclear.within k hk hne kept hkept (R'.replaceAll rest) z (hu.symm.trans hz.symm)
    obtain ⟨p, hp⟩ := hsuffix
    rw [R'.replaceAll_hit hm] at hp
    rcases List.append_eq_append_iff.mp hp with ⟨k, hk, hu⟩ | ⟨p', -, hu⟩
    · rcases List.append_eq_append_iff.mp hk with ⟨b, -, hb⟩ | ⟨b, hb, hk'⟩
      · -- within a replacement
        have hnil := hwithin k ⟨b, hb.symm⟩ hu
        exact ⟨rest, hrest, by rw [hu, hnil]; rfl⟩
      · -- within the head of a match
        by_cases hpnil : p = []
        · exact ⟨s, List.suffix_rfl, by rw [R'.replaceAll_hit hm, ← hp, hpnil]; rfl⟩
        · by_cases hbnil : b = []
          · rw [hbnil, List.nil_append] at hk'
            have hnil := hwithin k (hk' ▸ List.suffix_rfl) hu
            exact ⟨rest, hrest, by rw [hu, hnil]; rfl⟩
          · have hc : p ++ b ∈ R'.head.Lang := hb ▸ (R'.firstMatch_eq_some hm).1
            refine absurd ?_ (happart p b hpnil hbnil hc kept hkept
              (R'.replacement ++ R'.replaceAll rest) z)
            rw [← List.append_assoc, ← hk', ← hu, hz]
    · obtain ⟨v, hv, heq⟩ := ih ⟨p', hu.symm⟩
      exact ⟨v, hv.trans hrest, heq⟩

/-- What is left of a head is copied. -/
theorem replaceAll_inner {p k : List α} (happart : Apart R R') (hkept : p ++ k ∈ R.head.Lang)
    (hp : p ≠ []) (hpre : k <+: R'.replaceAll u) :
    ∃ r, u = k ++ r ∧ R'.replaceAll u = k ++ R'.replaceAll r := by
  induction k generalizing p u with
  | nil => exact ⟨u, rfl, rfl⟩
  | cons a k ih =>
    obtain ⟨y, hy⟩ := hpre
    cases hm : R'.firstMatch u with
    | some m =>
      refine absurd ?_ (happart p (a :: k) hp (List.cons_ne_nil a k) hkept m.1
        (R'.firstMatch_eq_some hm).1 y (R'.replacement ++ R'.replaceAll m.2))
      rw [hy, R'.replaceAll_hit hm, List.append_assoc]
    | none =>
      cases u with
      | nil => simp at hy
      | cons b u =>
        rw [R'.replaceAll_skip hm, List.cons_append, List.cons.injEq] at hy
        obtain ⟨rfl, hy⟩ := hy
        have hkept' : (p ++ [a]) ++ k ∈ R.head.Lang := by
          rwa [List.append_assoc, List.singleton_append]
        obtain ⟨r, rfl, hr⟩ := ih hkept' (by simp) ⟨y, hy⟩
        exact ⟨r, rfl, by rw [R'.replaceAll_skip hm, hr, List.cons_append]⟩

/-- A head at which the other rule has no match is copied. -/
theorem replaceAll_head (happart : Apart R R') (hkept : kept ∈ R.head.Lang)
    (hm : R'.firstMatch u = none) (hpre : kept <+: R'.replaceAll u) :
    ∃ r, u = kept ++ r ∧ R'.replaceAll u = kept ++ R'.replaceAll r := by
  cases kept with
  | nil => exact absurd hkept R.head_pos
  | cons a k =>
    obtain ⟨y, hy⟩ := hpre
    cases u with
    | nil => simp at hy
    | cons b u =>
      rw [R'.replaceAll_skip hm, List.cons_append, List.cons.injEq] at hy
      obtain ⟨rfl, hy⟩ := hy
      obtain ⟨r, rfl, hr⟩ := replaceAll_inner (p := [a]) happart hkept (by simp) ⟨y, hy⟩
      exact ⟨r, rfl, by rw [R'.replaceAll_skip hm, hr, List.cons_append]⟩

/-- A head at which the other rule has a match ends with the head of that. -/
theorem isPrefix_of_match (hclear : Clear R R') (hkept : kept ∈ R.head.Lang) {c : List α}
    (hm : R'.firstMatch u = some (c, rest)) (hpre : kept <+: R'.replaceAll u) : kept <+: c := by
  obtain ⟨a, rep, hrep, hinto⟩ := hclear.into
  obtain ⟨y, hy⟩ := hpre
  rw [R'.replaceAll_hit hm, List.append_assoc, hrep] at hy
  rcases List.append_eq_append_iff.mp hy with ⟨d, hd, -⟩ | ⟨d, hd, hrest⟩
  · exact ⟨d, hd.symm⟩
  · cases d with
    | nil => exact ⟨[], by rw [hd, List.append_nil, List.append_nil]⟩
    | cons b d =>
      obtain ⟨rfl, -⟩ := List.cons.inj hrest
      exact absurd (hd ▸ List.mem_append_right c List.mem_cons_self) (hinto kept hkept)

/-! ### Heads that end with a run -/

/-- A head takes all of a run at its end, unless the tail then fails; captures at one place differ
in that run only. -/
structure Greedy (R : Rule α) (p : α → Bool) : Prop where
  longest : ∀ u kept rest, R.firstMatch u = some (kept, rest) → ∀ h r, h ≠ [] → (∀ a ∈ h, p a) →
    kept ++ (h ++ r) = u → R.tailRest r = none
  captures : ∀ c ∈ R.head.Lang, ∀ c' ∈ R.head.Lang, ∀ y z, c ++ y = c' ++ z →
    (∃ h, (∀ a ∈ h, p a) ∧ c = c' ++ h) ∨ ∃ h, (∀ a ∈ h, p a) ∧ c' = c ++ h

variable {p : α → Bool}

/-- The first split of a run with which one goes on leaves nothing longer to go on with. -/
theorem longest_span {β : Type*} {f : List α × List α → Option β} {s : List α} {y : β}
    (h : (Pattern.spans p s).findSome? f = some y) : ∃ m ∈ Pattern.spans p s, f m = some y ∧
      ∀ g r, g ≠ [] → (∀ a ∈ g, p a) → m.2 = g ++ r → f (m.1 ++ g, r) = none := by
  induction s generalizing f with
  | nil =>
    refine ⟨([], []), List.mem_singleton.mpr rfl, by simpa [Pattern.spans] using h, ?_⟩
    intro g r hg _ hr
    exact absurd (List.append_eq_nil_iff.mp hr.symm).1 hg
  | cons a s ih =>
    rw [Pattern.spans] at h ⊢
    split_ifs at h ⊢ with ha
    · rw [List.findSome?_append, List.findSome?_map] at h
      cases hrest : (Pattern.spans p s).findSome? (f ∘ fun m => (a :: m.1, m.2)) with
      | some x =>
        rw [hrest, Option.some_or] at h
        obtain ⟨m, hm, hf, hlong⟩ := ih (hrest.trans h)
        exact ⟨(a :: m.1, m.2), List.mem_append_left _ (List.mem_map_of_mem hm), hf, hlong⟩
      | none =>
        rw [hrest, Option.none_or] at h
        refine ⟨([], a :: s), List.mem_append_right _ (List.mem_singleton.mpr rfl),
          by simpa using h, ?_⟩
        intro g r hg hgp hr
        cases g with
        | nil => exact absurd rfl hg
        | cons b g =>
          obtain ⟨rfl, rfl⟩ := List.cons.inj hr
          rw [List.forall_mem_cons] at hgp
          exact List.findSome?_eq_none_iff.mp hrest (g, r)
            ((Pattern.mem_spans p _ _).mpr ⟨rfl, hgp.2⟩)
    · refine ⟨([], a :: s), List.mem_singleton.mpr rfl, by simpa using h, ?_⟩
      intro g r hg hgp hr
      cases g with
      | nil => exact absurd rfl hg
      | cons b g =>
        obtain ⟨rfl, -⟩ := List.cons.inj hr
        exact absurd (hgp _ List.mem_cons_self) ha

theorem exists_of_findSome?_flatMap {β γ δ : Type*} {f : γ → Option δ} {g : β → List γ}
    {l : List β} {y : δ} (h : (l.flatMap g).findSome? f = some y) :
    ∃ m ∈ l, (g m).findSome? f = some y := by
  induction l with
  | nil => cases h
  | cons m l ih =>
    rw [List.flatMap_cons, List.findSome?_append] at h
    rcases Option.or_eq_some_iff.mp h with h | ⟨-, h⟩
    · exact ⟨m, List.mem_cons_self, h⟩
    · obtain ⟨n, hn, h⟩ := ih h
      exact ⟨n, List.mem_cons_of_mem m hn, h⟩

/-- The captures of a head that ends with a run are tried from the longest run on. -/
theorem longest_of_splits {P : Pattern α}
    (hsplits : ∀ s, R.head.splits s = (Pattern.seq P (.many p)).splits s) :
    ∀ u kept rest, R.firstMatch u = some (kept, rest) → ∀ h r, h ≠ [] → (∀ a ∈ h, p a) →
      kept ++ (h ++ r) = u → R.tailRest r = none := by
  intro u kept rest hm h r hne hp hu
  rw [firstMatch, hsplits] at hm
  obtain ⟨m, hmem, hm⟩ := exists_of_findSome?_flatMap hm
  rw [List.findSome?_map] at hm
  obtain ⟨n, hn, hfound, hlong⟩ := longest_span hm
  obtain ⟨x, -, hx⟩ := Option.map_eq_some_iff.mp hfound
  obtain ⟨rfl, -⟩ := Prod.mk.inj hx
  have hcut : m.1 ++ m.2 = u := ((P.mem_splits u m).mp hmem).1
  have hrun : n.1 ++ n.2 = m.2 := ((Pattern.mem_spans p _ _).mp hn).1
  have hrest : n.2 = h ++ r := by
    rw [← hrun, ← hu, ← List.append_assoc] at hcut
    exact List.append_cancel_left hcut
  simpa using hlong h r hne hp hrest

theorem exists_run_many (p : α → Bool) : ∃ P : Pattern α, ∀ s,
    (Pattern.many p).splits s = (Pattern.seq P (.many p)).splits s :=
  ⟨.empty, fun s => by simp [Pattern.splits]⟩

theorem exists_run_seq (P : Pattern α) {Q : Pattern α}
    (h : ∃ Q' : Pattern α, ∀ s, Q.splits s = (Pattern.seq Q' (.many p)).splits s) :
    ∃ P' : Pattern α, ∀ s,
      (Pattern.seq P Q).splits s = (Pattern.seq P' (.many p)).splits s := by
  obtain ⟨Q', hQ⟩ := h
  refine ⟨.seq P Q', fun s => ?_⟩
  simp only [Pattern.splits, hQ, List.flatMap_assoc, List.flatMap_map, List.map_flatMap,
    List.map_map, Function.comp_def, List.append_assoc]

/-- The match begins with the longest capture that the tail can follow. -/
theorem Greedy.firstMatch_eq (hR : R.Greedy p) {c r : List α} (hc : c ∈ R.head.Lang)
    (hr : R.tailRest r = some rest)
    (hlong : ∀ h r', h ≠ [] → (∀ a ∈ h, p a) → r = h ++ r' → R.tailRest r' = none) :
    R.firstMatch (c ++ r) = some (c, rest) := by
  have hmem : (c, r) ∈ R.head.splits (c ++ r) := (R.head.mem_splits _ _).mpr ⟨rfl, hc⟩
  cases hm : R.firstMatch (c ++ r) with
  | none =>
    have hnone := List.findSome?_eq_none_iff.mp hm (c, r) hmem
    rw [hr] at hnone
    cases hnone
  | some m =>
    obtain ⟨kept, rest'⟩ := m
    obtain ⟨hkept, r', hr', htail⟩ := R.firstMatch_eq_some hm
    have hsame : kept = c := by
      rcases hR.captures kept hkept c hc r' r hr' with ⟨h, hp, rfl⟩ | ⟨h, hp, rfl⟩
      · rw [List.append_assoc, List.append_cancel_left_eq] at hr'
        cases h with
        | nil => exact List.append_nil c
        | cons a h => simp [hlong (a :: h) r' (by simp) hp hr'.symm] at htail
      · cases h with
        | nil => exact (List.append_nil kept).symm
        | cons a h =>
          have hnone := hR.longest _ kept rest' hm (a :: h) r (by simp) hp
            (List.append_assoc ..).symm
          simp [hnone] at hr
    subst hsame
    rw [List.append_cancel_left_eq] at hr'
    subst hr'
    rw [Option.some.inj (htail.symm.trans hr)]

/-! ### What one rule finds in what another has rewritten -/

/-- The rules keep apart, and the tail of `R` reads a rewritten text as it read the text. -/
structure Compatible (p : α → Bool) (R R' : Rule α) : Prop where
  greedy : R.Greedy p
  apart : Apart R R'
  apart' : Apart R' R
  clear : Clear R R'
  clear' : Clear R' R
  outside : ∀ c ∈ R'.head.Lang, ∀ a ∈ c.head?, p a = false
  solid : ∀ a ∈ R.replacement.head?, p a = false
  keeps : ∀ s rest, R.tailRest s = some rest →
    R.tailRest (R.replacement ++ R'.replaceAll rest) = some (R'.replaceAll rest)
  reads : ∀ s, R.tailRest (R'.replaceAll s) ≠ none → R.tailRest s ≠ none

/-- A rewritten match is found again as it is. -/
theorem Compatible.firstMatch_replaced (h : Compatible p R R') {c : List α}
    (hc : c ∈ R.head.Lang) (hr : R.tailRest s = some rest) :
    R.firstMatch (c ++ (R.replacement ++ R'.replaceAll rest)) =
      some (c, R'.replaceAll rest) := by
  refine h.greedy.firstMatch_eq hc (h.keeps s rest hr) fun g r hg hp heq => ?_
  obtain ⟨a, rep, hrep, -⟩ := h.clear'.into
  obtain ⟨b, g, rfl⟩ := List.exists_cons_of_ne_nil hg
  have hsolid := h.solid a (by rw [hrep]; rfl)
  rw [hrep, List.cons_append, List.cons_append, List.cons.injEq] at heq
  rw [heq.1, hp b List.mem_cons_self] at hsolid
  cases hsolid

theorem firstMatch_ne_none {c r : List α} (hc : c ∈ R.head.Lang) (hr : R.tailRest r ≠ none) :
    R.firstMatch (c ++ r) ≠ none := by
  intro hm
  have hmem : (c, r) ∈ R.head.splits (c ++ r) := (R.head.mem_splits _ _).mpr ⟨rfl, hc⟩
  have hnone := List.findSome?_eq_none_iff.mp hm (c, r) hmem
  exact hr (Option.map_eq_none_iff.mp hnone)

/-- What a rule has rewritten is settled for it. -/
theorem Compatible.settled (h : Compatible p R R) (s : List α) : R.Settled (R.replaceAll s) := by
  intro u' hsuffix kept rest' hm'
  obtain ⟨hkept, r', hr', htail'⟩ := R.firstMatch_eq_some hm'
  obtain ⟨u, -, rfl⟩ := exists_scan h.apart' h.clear hkept ⟨r', hr'⟩ hsuffix
  cases hm : R.firstMatch u with
  | none =>
    -- no match began here, so none begins here now
    obtain ⟨r, rfl, hu⟩ := replaceAll_head h.apart hkept hm ⟨r', hr'⟩
    rw [hu, List.append_cancel_left_eq] at hr'
    subst hr'
    refine absurd hm (firstMatch_ne_none hkept (h.reads r ?_))
    rw [htail']
    exact Option.some_ne_none rest'
  | some m =>
    obtain ⟨c, rest⟩ := m
    obtain ⟨hc, r, -, htail⟩ := R.firstMatch_eq_some hm
    have hagain := h.firstMatch_replaced hc htail
    rw [← List.append_assoc, ← R.replaceAll_hit hm, hm'] at hagain
    obtain ⟨rfl, rfl⟩ := Prod.mk.inj (Option.some.inj hagain)
    exact R.replaceAll_hit hm

/-- The replacement of one rule is nothing to the other. -/
theorem Compatible.replaceAll_replacement (h : Compatible p R R') (s : List α) :
    R'.replaceAll (R.replacement ++ s) = R.replacement ++ R'.replaceAll s := by
  refine R'.replaceAll_append_of_none fun k hk hne => R'.firstMatch_eq_none fun d hd hpre => ?_
  obtain ⟨z, hz⟩ := hpre
  exact h.clear'.within k hk hne d hd s z hz.symm

/-- No match of the other rule begins in a run. -/
theorem Compatible.replaceAll_run (h : Compatible p R R') {g : List α} (hg : ∀ a ∈ g, p a)
    (s : List α) : R'.replaceAll (g ++ s) = g ++ R'.replaceAll s := by
  refine R'.replaceAll_append_of_none fun k hk hne => R'.firstMatch_eq_none fun d hd hpre => ?_
  obtain ⟨a, k, rfl⟩ := List.exists_cons_of_ne_nil hne
  cases d with
  | nil => exact R'.head_pos hd
  | cons b d =>
    obtain ⟨rfl, -⟩ := List.cons_prefix_cons.mp hpre
    have hout := h.outside _ hd b rfl
    rw [hg b (hk.subset List.mem_cons_self)] at hout
    cases hout

/-- A settled match and the match after the rewriting capture the same. -/
theorem Compatible.capture_eq (h : Compatible p R R') {c r y rest' : List α}
    (hkept : kept ∈ R.head.Lang) (hm : R.firstMatch (kept ++ r) = some (c, rest))
    (hsettled : kept ++ r = c ++ (R.replacement ++ rest)) (hy : R.tailRest y = some rest)
    (hreads : R.tailRest r ≠ none)
    (hm' : R.firstMatch (kept ++ R'.replaceAll r) = some (kept, rest')) : kept = c := by
  have hc := (R.firstMatch_eq_some hm).1
  rcases h.greedy.captures kept hkept c hc r (R.replacement ++ rest) hsettled with
    ⟨g, hg, hgc⟩ | ⟨g, hg, hgc⟩
  · -- the capture after the rewriting would have been the longer one before it
    by_contra hne
    have hgnil : g ≠ [] := fun hnil => hne (by rw [hgc, hnil, List.append_nil])
    exact hreads (h.greedy.longest _ c rest hm g r hgnil hg (by rw [hgc, List.append_assoc]))
  · -- the capture before the rewriting is still there
    by_contra hne
    have hgnil : g ≠ [] := fun hnil => hne (by rw [hgc, hnil, List.append_nil])
    rw [hgc, List.append_assoc, List.append_cancel_left_eq] at hsettled
    have hnone := h.greedy.longest _ kept rest' hm' g (R.replacement ++ R'.replaceAll rest) hgnil
      hg (by rw [hsettled, h.replaceAll_run hg, h.replaceAll_replacement])
    rw [h.keeps y rest hy] at hnone
    cases hnone

/-- A text that is settled for a rule stays so when another rule rewrites it, as long as that does
not match where the rule does. -/
theorem Compatible.settled_replaceAll (h : Compatible p R R') (hs : R.Settled s)
    (hother : ∀ u m, R.firstMatch (R'.replaceAll u) = some m → R'.firstMatch u = none) :
    R.Settled (R'.replaceAll s) := by
  intro u' hsuffix kept rest' hm'
  obtain ⟨hkept, r', hr', htail'⟩ := R.firstMatch_eq_some hm'
  obtain ⟨u, husuffix, rfl⟩ := exists_scan h.apart' h.clear hkept ⟨r', hr'⟩ hsuffix
  obtain ⟨r, rfl, hu⟩ := replaceAll_head h.apart hkept (hother u _ hm') ⟨r', hr'⟩
  rw [hu] at hm'
  rw [hu, List.append_cancel_left_eq] at hr'
  subst hr'
  have hreads : R.tailRest r ≠ none := h.reads r (by rw [htail']; exact Option.some_ne_none rest')
  obtain ⟨m, hm⟩ := Option.ne_none_iff_exists'.mp (firstMatch_ne_none hkept hreads)
  obtain ⟨c, rest⟩ := m
  obtain ⟨hc, y, -, hy⟩ := R.firstMatch_eq_some hm
  have hsettled := hs _ husuffix c rest hm
  rw [List.append_assoc] at hsettled
  obtain rfl := h.capture_eq hkept hm hsettled hy hreads hm'
  rw [List.append_cancel_left_eq] at hsettled
  have hrest : R'.replaceAll rest = rest' := by
    have hkeeps := h.keeps y rest hy
    rw [← h.replaceAll_replacement, ← hsettled, htail'] at hkeeps
    exact (Option.some.inj hkeeps).symm
  rw [hu, hsettled, h.replaceAll_replacement, hrest, List.append_assoc]

end Kasli.Regex.Rule
