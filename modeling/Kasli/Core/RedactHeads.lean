import Kasli.Core.RedactEdge
import Kasli.Regex.Settled

/-! The four rules keep apart. A head is a word and a gap, once or twice, and the words within it
are no first words; a replacement has no separator and begins with a byte that no head has. So
what one rule finds in a text that another has rewritten was there before. -/

namespace Kasli.Core

open Regex Regex.Pattern Regex.Rule

/-! ### Runs -/

/-- Where a longest run ends is determined. -/
theorem eq_of_runs {α : Type*} {p : α → Bool} {a a' x x' : List α} (ha : ∀ b ∈ a, p b)
    (ha' : ∀ b ∈ a', p b) (hx : ∀ b ∈ x.head?, p b = false) (hx' : ∀ b ∈ x'.head?, p b = false)
    (h : a ++ x = a' ++ x') : a = a' ∧ x = x' := by
  obtain rfl : a = a' := by rw [← takeWhile_run ha hx, h, takeWhile_run ha' hx']
  exact ⟨rfl, List.append_cancel_left h⟩

/-- Two runs that begin a text differ in a run. -/
theorem runs_cases {α : Type*} {p : α → Bool} {a a' x x' : List α} (ha : ∀ b ∈ a, p b)
    (ha' : ∀ b ∈ a', p b) (h : a ++ x = a' ++ x') :
    (∃ g, (∀ b ∈ g, p b) ∧ a = a' ++ g) ∨ ∃ g, (∀ b ∈ g, p b) ∧ a' = a ++ g := by
  rcases List.append_eq_append_iff.mp h with ⟨g, rfl, -⟩ | ⟨g, rfl, -⟩
  · exact .inr ⟨g, fun b hb => ha' b (List.mem_append_right a hb), rfl⟩
  · exact .inl ⟨g, fun b hb => ha b (List.mem_append_right a' hb), rfl⟩

/-! ### Captures -/

theorem head?_append_of_forall {α : Type*} {p : α → Bool} {a x : List α}
    (ha : ∀ b ∈ a, p b = false) (hne : a ≠ []) : ∀ b ∈ (a ++ x).head?, p b = false := by
  obtain ⟨c, a, rfl⟩ := List.exists_cons_of_ne_nil hne
  intro b hb
  rw [List.cons_append, List.head?_cons, Option.mem_some_iff] at hb
  exact hb ▸ ha c List.mem_cons_self

/-- Two texts that begin with a word, a gap and a separator begin with the same ones. -/
theorem word_sep_inj {w g w' g' x x' : Bytes} {sep sep' : UInt8} (hw : ∀ b ∈ w, wordByte b)
    (hw' : ∀ b ∈ w', wordByte b) (hg : ∀ b ∈ g, isSpace b) (hg' : ∀ b ∈ g', isSpace b)
    (hsep : IsSeparator sep) (hsep' : IsSeparator sep')
    (h : w ++ (g ++ sep :: x) = w' ++ (g' ++ sep' :: x')) :
    w = w' ∧ g = g' ∧ sep = sep' ∧ x = x' := by
  have hend {u y : Bytes} {b : UInt8} (hu : ∀ b ∈ u, isSpace b) (hb : IsSeparator b) :
      ∀ a ∈ (u ++ b :: y).head?, wordByte a = false := by
    have hall : ∀ a ∈ u ++ [b], wordByte a = false := by
      rw [List.forall_mem_append, List.forall_mem_singleton]
      exact ⟨fun a ha => not_wordByte_of_isSpace (hu a ha), hb.plain.1⟩
    have hhead := head?_append_of_forall (x := y) hall (by simp)
    rwa [List.append_assoc, List.singleton_append] at hhead
  have hspace {b : UInt8} (hb : IsSeparator b) (y : Bytes) :
      ∀ a ∈ (b :: y).head?, isSpace a = false := by
    intro a ha
    rw [← Option.some.inj ha]
    exact hb.plain.2.1
  obtain ⟨rfl, hgap⟩ := eq_of_runs hw hw' (hend hg hsep) (hend hg' hsep') h
  obtain ⟨rfl, hrest⟩ := eq_of_runs hg hg' (hspace hsep x) (hspace hsep' x') hgap
  exact ⟨rfl, rfl, List.cons.inj hrest⟩

theorem captures_keyHead {sep : UInt8} (hsep : IsSeparator sep) : ∀ c ∈ (keyHead sep).Lang,
    ∀ c' ∈ (keyHead sep).Lang, ∀ y z, c ++ y = c' ++ z →
      (∃ h, (∀ a ∈ h, isSpace a) ∧ c = c' ++ h) ∨ ∃ h, (∀ a ∈ h, isSpace a) ∧ c' = c ++ h := by
  intro c hc c' hc' y z h
  obtain ⟨w, g, r, hw, hg, hr, rfl⟩ := mem_keyHead.mp hc
  obtain ⟨w', g', r', hw', hg', hr', rfl⟩ := mem_keyHead.mp hc'
  simp only [List.append_assoc, List.cons_append] at h
  obtain ⟨rfl, rfl, -, hrest⟩ := word_sep_inj (firstWord_bytes hw.firstWord)
    (firstWord_bytes hw'.firstWord) hg hg' hsep hsep h
  rcases runs_cases hr hr' hrest with ⟨d, hd, rfl⟩ | ⟨d, hd, rfl⟩
  · exact .inl ⟨d, hd, by simp⟩
  · exact .inr ⟨d, hd, by simp⟩

theorem captures_bearerHead : ∀ c ∈ bearerHead.Lang, ∀ c' ∈ bearerHead.Lang, ∀ y z,
    c ++ y = c' ++ z → (∃ h, (∀ a ∈ h, isSpace a) ∧ c = c' ++ h) ∨
      ∃ h, (∀ a ∈ h, isSpace a) ∧ c' = c ++ h := by
  intro c hc c' hc' y z h
  obtain ⟨w, g, r, v, t, hw, hg, hr, hv, htne, ht, rfl⟩ := mem_bearerHead.mp hc
  obtain ⟨w', g', r', v', t', hw', hg', hr', hv', htne', ht', rfl⟩ := mem_bearerHead.mp hc'
  have hfirst {u : Bytes} (hu : u.map toLower = ascii "authorization") : ∀ b ∈ u, wordByte b :=
    firstWord_bytes (by rw [hu]; decide)
  have hsolid {u x : Bytes} (hu : u.map toLower = ascii "bearer") :
      ∀ b ∈ (u ++ x).head?, isSpace b = false := by
    refine head?_append_of_forall (fun b hb => (plain_of_wordByte (bearer_word hu b hb)).2.2.1) ?_
    rintro rfl
    revert hu
    decide
  have hgap {u x : Bytes} (hu : ∀ b ∈ u, isSpace b) (hne : u ≠ []) :
      ∀ b ∈ (u ++ x).head?, wordByte b = false :=
    head?_append_of_forall (fun b hb => not_wordByte_of_isSpace (hu b hb)) hne
  simp only [List.append_assoc, List.cons_append] at h
  obtain ⟨rfl, rfl, -, hcolon⟩ := word_sep_inj (hfirst hw) (hfirst hw') hg hg' (.inr rfl)
    (.inr rfl) h
  obtain ⟨rfl, hbearer⟩ := eq_of_runs hr hr' (hsolid hv) (hsolid hv') hcolon
  obtain ⟨rfl, hrest⟩ := eq_of_runs (bearer_word hv) (bearer_word hv') (hgap ht htne)
    (hgap ht' htne') hbearer
  rcases runs_cases ht ht' hrest with ⟨d, hd, rfl⟩ | ⟨d, hd, rfl⟩
  · exact .inl ⟨d, hd, by simp⟩
  · exact .inr ⟨d, hd, by simp⟩

/-! ### Words within a head -/

/-- The text begins with a first word that goes no further. -/
def StartsWord (s : Bytes) : Prop := (s.takeWhile wordByte).map toLower ∈ firstWords

instance (s : Bytes) : Decidable (StartsWord s) := inferInstanceAs (Decidable (_ ∈ firstWords))

theorem takeWhile_word {w G : Bytes} (hw : ∀ b ∈ w, wordByte b)
    (hG : ∀ b ∈ G, wordByte b = false) (hne : G ≠ []) (y : Bytes) :
    (w ++ (G ++ y)).takeWhile wordByte = w := by
  obtain ⟨g, G, rfl⟩ := List.exists_cons_of_ne_nil hne
  rw [List.takeWhile_append_of_pos hw, List.cons_append,
    List.takeWhile_cons_of_neg (by simp [hG g]), List.append_nil]

theorem startsWord_head {R : Rule UInt8} (hR : Headed R) {c : Bytes} (hc : c ∈ R.head.Lang)
    (y : Bytes) : StartsWord (c ++ y) := by
  obtain ⟨w, G, d, hw, hG, hne, rfl⟩ := hR c hc
  rw [StartsWord, List.append_assoc, List.append_assoc, takeWhile_word (firstWord_bytes hw) hG hne]
  exact hw

/-- A cut in a word, in the gap after it, or behind both. -/
theorem cut_cases {p k w G d : Bytes} (h : p ++ k = w ++ (G ++ d)) :
    (∃ v, w = p ++ v ∧ k = v ++ (G ++ d)) ∨ (∃ H, H <:+ G ∧ k = H ++ d) ∨
      ∃ e, p = w ++ (G ++ e) ∧ e ++ k = d := by
  rcases List.append_eq_append_iff.mp h with ⟨v, hv, hk⟩ | ⟨q, rfl, hq⟩
  · exact .inl ⟨v, hv, hk⟩
  · rcases List.append_eq_append_iff.mp hq with ⟨e, rfl, he⟩ | ⟨H, hH, hk⟩
    · exact .inr (.inr ⟨e, rfl, he.symm⟩)
    · exact .inr (.inl ⟨H, ⟨q, hH.symm⟩, hk⟩)

/-- The words of a head are such that none of their ends is a first word. -/
def NoWordEnds (word : Bytes) : Prop := ∀ v ∈ word.tails, v ≠ word → v ∉ firstWords

instance (word : Bytes) : Decidable (NoWordEnds word) :=
  inferInstanceAs (Decidable (∀ v ∈ word.tails, v ≠ word → v ∉ firstWords))

/-- In a word and a gap no first word starts but at the beginning. -/
theorem not_startsWord_of_cut {p k w G d : Bytes} (hw : ∀ b ∈ w, wordByte b)
    (hends : NoWordEnds (w.map toLower)) (hG : ∀ b ∈ G, wordByte b = false) (hne : G ≠ [])
    (h : p ++ k = w ++ (G ++ d)) (hp : p ≠ []) (y : Bytes) :
    ¬ StartsWord (k ++ y) ∨ ∃ e, p = w ++ (G ++ e) ∧ e ++ k = d := by
  rcases cut_cases h with ⟨v, rfl, rfl⟩ | ⟨H, hH, rfl⟩ | hrest
  · refine .inl ?_
    rw [StartsWord, List.append_assoc, List.append_assoc,
      takeWhile_word (fun b hb => hw b (List.mem_append_right p hb)) hG hne]
    refine hends _ ?_ ?_
    · rw [List.map_append, List.mem_tails]
      exact List.suffix_append _ _
    · intro heq
      have hlength := congrArg List.length heq
      rw [List.length_map, List.length_map, List.length_append] at hlength
      exact hp (List.length_eq_zero_iff.mp (by omega))
  · by_cases hnil : H = []
    · obtain ⟨e, he⟩ : ∃ e, p = w ++ (G ++ e) ∧ e ++ ([] ++ d) = d := by
        refine ⟨[], ?_, rfl⟩
        rw [hnil, ← List.append_assoc, ← List.append_assoc w, List.append_left_inj] at h
        simpa using h
      exact .inr ⟨e, by simpa [hnil] using he⟩
    · refine .inl ?_
      have hgap := takeWhile_word (w := []) (by simp)
        (fun b hb => hG b (hH.subset hb)) hnil (d ++ y)
      rw [List.nil_append] at hgap
      rw [StartsWord, List.append_assoc, hgap]
      decide
  · exact .inr hrest

/-- Within a head of the rule no first word starts. -/
def WordedOnce (R : Rule UInt8) : Prop := ∀ p k, p ≠ [] → k ≠ [] → p ++ k ∈ R.head.Lang →
    ∀ y, ¬ StartsWord (k ++ y)

theorem wordedOnce_keyHead {R : Rule UInt8} {sep : UInt8} (h : R.head = keyHead sep)
    (hword : wordByte sep = false) : WordedOnce R := by
  intro p k hp hk hc y
  obtain ⟨w, g, g', hw, hg, hg', heq⟩ := mem_keyHead.mp (h ▸ hc)
  have hends : NoWordEnds (w.map toLower) := by
    have hall : ∀ w ∈ keyWords, NoWordEnds w := by decide
    exact hall _ hw
  rw [← List.append_nil (g ++ sep :: g')] at heq
  rcases not_startsWord_of_cut (firstWord_bytes hw.firstWord) hends (gap_of_spaces hg hword hg')
    (by simp) heq hp y with hnot | ⟨e, -, he⟩
  · exact hnot
  · exact absurd (List.append_eq_nil_iff.mp he).2 hk

theorem wordedOnce_bearer : WordedOnce bearerPattern := by
  intro p k hp hk hc y
  obtain ⟨w, g, g', w', g'', hw, hg, hg', hw', hne, hg'', heq⟩ := mem_bearerHead.mp hc
  have hfirst : ∀ b ∈ w, wordByte b := firstWord_bytes (by rw [hw]; decide)
  have heq' : p ++ k = w ++ ((g ++ chr ':' :: g') ++ (w' ++ (g'' ++ []))) := by simp [heq]
  rcases not_startsWord_of_cut hfirst (by rw [hw]; decide) (gap_of_spaces hg (by decide) hg')
    (by simp) heq' hp y with hnot | ⟨e, -, he⟩
  · exact hnot
  · have hgap : ∀ b ∈ g'', wordByte b = false := fun b hb => not_wordByte_of_isSpace (hg'' b hb)
    by_cases hnil : e = []
    · -- at the second word, which is no first word
      rw [hnil, List.nil_append] at he
      rw [he, StartsWord, List.append_assoc, List.append_assoc, takeWhile_word (bearer_word hw')
        hgap hne, hw']
      decide
    · rcases not_startsWord_of_cut (bearer_word hw') (by rw [hw']; decide) hgap hne he hnil y with
        hnot | ⟨d, -, hd⟩
      · exact hnot
      · exact absurd (List.append_eq_nil_iff.mp hd).2 hk

theorem wordedOnce_rules : ∀ R ∈ rules, WordedOnce R := by
  simp only [rules, List.forall_mem_cons]
  exact ⟨wordedOnce_keyHead rfl (by decide), wordedOnce_bearer, wordedOnce_keyHead rfl (by decide),
    wordedOnce_keyHead rfl (by decide), by simp⟩

theorem apart_rules {R R' : Rule UInt8} (hR : R ∈ rules) (hR' : R' ∈ rules) : Apart R R' := by
  intro p k hp hk hpk c hc y z heq
  have hstarts := startsWord_head (headed_rules R' hR') hc z
  rw [← heq] at hstarts
  exact wordedOnce_rules R hR p k hp hk hpk y hstarts

/-! ### Replacements -/

/-- What a head has in it. -/
theorem head_bytes : ∀ R ∈ rules, ∀ c ∈ R.head.Lang, ∀ b ∈ c,
    wordByte b ∨ isSpace b ∨ b = chr '=' ∨ b = chr ':' := by
  have hkey {sep : UInt8} (hsep : sep = chr '=' ∨ sep = chr ':') : ∀ c ∈ (keyHead sep).Lang,
      ∀ b ∈ c, wordByte b ∨ isSpace b ∨ b = chr '=' ∨ b = chr ':' := by
    intro c hc b hb
    obtain ⟨w, g, g', hw, hg, hg', rfl⟩ := mem_keyHead.mp hc
    rw [List.mem_append, List.mem_append, List.mem_cons] at hb
    rcases hb with hb | hb | rfl | hb
    · exact .inl (firstWord_bytes hw.firstWord b hb)
    · exact .inr (.inl (hg b hb))
    · exact .inr (.inr hsep)
    · exact .inr (.inl (hg' b hb))
  have hbearer : ∀ c ∈ bearerHead.Lang, ∀ b ∈ c,
      wordByte b ∨ isSpace b ∨ b = chr '=' ∨ b = chr ':' := by
    intro c hc b hb
    obtain ⟨w, g, g', w', g'', hw, hg, hg', hw', -, hg'', rfl⟩ := mem_bearerHead.mp hc
    simp only [List.mem_append, List.mem_cons] at hb
    rcases hb with hb | hb | rfl | hb | hb | hb
    · exact .inl (firstWord_bytes (by rw [hw]; decide) b hb)
    · exact .inr (.inl (hg b hb))
    · exact .inr (.inr (.inr rfl))
    · exact .inr (.inl (hg' b hb))
    · exact .inl (bearer_word hw' b hb)
    · exact .inr (.inl (hg'' b hb))
  simp only [rules, List.forall_mem_cons]
  exact ⟨hkey (.inl rfl), hbearer, hkey (.inr rfl), hkey (.inl rfl), by simp⟩

/-- No head has the first byte of a replacement. -/
theorem exists_first : ∀ R ∈ rules, ∃ a rep, R.replacement = a :: rep ∧
    ∀ R' ∈ rules, ∀ c ∈ R'.head.Lang, a ∉ c := by
  have hquote : ∀ R' ∈ rules, ∀ c ∈ R'.head.Lang, chr '"' ∉ c := quote_notMem_rules
  have hbracket : ∀ R' ∈ rules, ∀ c ∈ R'.head.Lang, chr '[' ∉ c := fun R' hR' c hc hmem => by
    have := head_bytes R' hR' c hc _ hmem
    revert this
    decide
  have hfirst : ∀ R ∈ rules, R.replacement.head? = some (chr '"') ∨
      R.replacement.head? = some (chr '[') := by decide
  intro R hR
  rcases hfirst R hR with h | h
  · obtain ⟨rep, hrep⟩ := List.head?_eq_some_iff.mp h
    exact ⟨_, rep, hrep, hquote⟩
  · obtain ⟨rep, hrep⟩ := List.head?_eq_some_iff.mp h
    exact ⟨_, rep, hrep, hbracket⟩

theorem startsWord_append_of_end {k : Bytes} (h : ∃ b ∈ k, wordByte b = false) (y : Bytes) :
    StartsWord (k ++ y) ↔ StartsWord k := by
  obtain ⟨b, hb, hword⟩ := h
  have hlength : (k.takeWhile wordByte).length ≠ k.length := by
    intro heq
    have hall : k.takeWhile wordByte = k := (List.takeWhile_prefix wordByte).eq_of_length heq
    have htrue := List.mem_takeWhile_imp (hall.symm ▸ hb)
    rw [hword] at htrue
    cases htrue
  rw [StartsWord, StartsWord, List.takeWhile_append, if_neg hlength]

theorem clear_rules {R R' : Rule UInt8} (hR : R ∈ rules) (hR' : R' ∈ rules) : Clear R R' := by
  have hends : ∀ R ∈ rules, ∀ k ∈ R.replacement.tails, k ≠ [] →
      (∃ b ∈ k, wordByte b = false) ∧ ¬ StartsWord k := by decide
  constructor
  · intro k hk hne c hc y z heq
    have hstarts := startsWord_head (headed_rules R hR) hc z
    obtain ⟨hend, hnot⟩ := hends R' hR' k ((List.mem_tails k _).mpr hk) hne
    rw [← heq, startsWord_append_of_end hend] at hstarts
    exact hnot hstarts
  · obtain ⟨a, rep, hrep, hfirst⟩ := exists_first R' hR'
    exact ⟨a, rep, hrep, hfirst R hR⟩

/-! ### Tails -/

/-- No rule brings in the first quote of a text. -/
theorem quote_mem_of_replaceAll {R : Rule UInt8} (hR : R ∈ rules) {s : Bytes}
    (h : chr '"' ∈ R.replaceAll s) : chr '"' ∈ s := by
  have hrule : ∀ R ∈ rules, chr '"' ∉ R.replacement ∨ ∀ t ∈ R.tail.Lang, chr '"' ∈ t := by
    have hdelimited : ∀ t ∈ (delimited (· == chr '"')).Lang, chr '"' ∈ t := by
      rintro t ⟨u, ⟨a, ha, rfl⟩, v, -, rfl⟩
      obtain rfl : a = chr '"' := by simpa using ha
      simp
    simp only [rules, List.forall_mem_cons]
    exact ⟨.inr hdelimited, .inl (by decide), .inl (by decide), .inl (by decide), by simp⟩
  induction s using R.scan_induction with
  | nil => exact h
  | skip a s hm ih =>
    rw [R.replaceAll_skip hm, List.mem_cons] at h
    exact List.mem_cons.mpr (h.imp id ih)
  | hit s kept rest hm ih =>
    obtain ⟨-, r, rfl, hr⟩ := R.firstMatch_eq_some hm
    obtain ⟨t, ht, rfl⟩ := R.tailRest_eq_some hr
    rw [R.replaceAll_hit hm] at h
    rw [List.mem_append, List.mem_append]
    rcases hrule R hR with hnot | hquote
    · rw [List.mem_append, List.mem_append, or_iff_left_of_imp (fun h => absurd h hnot)] at h
      exact h.imp id fun h => .inr (ih h)
    · exact .inr (.inl (hquote t ht))

/-- How the tail of a rule reads a text that another rule has rewritten. -/
structure ReadsOn (R R' : Rule UInt8) : Prop where
  keeps : ∀ s rest, R.tailRest s = some rest →
    R.tailRest (R.replacement ++ R'.replaceAll rest) = some (R'.replaceAll rest)
  reads : ∀ s, R.tailRest (R'.replaceAll s) ≠ none → R.tailRest s ≠ none

theorem readsOn_plus {R R' : Rule UInt8} {p : UInt8 → Bool} (htail : R.tail = plus p)
    (hne : R.replacement ≠ []) (hrep : ∀ b ∈ R.replacement, p b) : ReadsOn R R' where
  keeps s rest h := by
    rw [R.tailRest_plus htail] at h ⊢
    split_ifs at h
    obtain rfl := Option.some.inj h
    have hfirst : (R.replacement ++ R'.replaceAll (s.dropWhile p)).head?.any p := by
      obtain ⟨a, rep, heq⟩ := List.exists_cons_of_ne_nil hne
      rw [heq] at hrep ⊢
      exact hrep a List.mem_cons_self
    have hend : (R'.replaceAll (s.dropWhile p)).dropWhile p = R'.replaceAll (s.dropWhile p) := by
      have hhead := R'.head?_replaceAll (s.dropWhile p)
      have hnot := List.head?_dropWhile_not p s
      cases hx : R'.replaceAll (s.dropWhile p) with
      | nil => rfl
      | cons b x =>
        rw [← hhead, hx] at hnot
        exact List.dropWhile_cons_of_neg (by simpa using hnot)
    rw [if_pos hfirst, List.dropWhile_append_of_pos hrep, hend]
  reads s h := by
    rw [R.tailRest_plus htail, head?_replaceAll] at h
    rw [R.tailRest_plus htail]
    split_ifs at h ⊢
    · exact Option.some_ne_none _
    · exact h

theorem readsOn_quoted {R' : Rule UInt8} (hR' : R' ∈ rules) :
    ReadsOn quotedAssignmentPattern R' where
  keeps s rest _ := by
    rw [Rule.tailRest_delimited _ rfl]
    rfl
  reads s h := by
    rw [Rule.tailRest_delimited _ rfl, head?_replaceAll] at h
    rw [Rule.tailRest_delimited _ rfl]
    split_ifs at h ⊢ with hquote
    · cases s with
      | nil => cases hquote
      | cons a s =>
        -- no match begins with the quote
        have hnone : R'.firstMatch (a :: s) = none := by
          obtain rfl : a = chr '"' := by simpa using hquote
          refine R'.firstMatch_eq_none fun c hc hpre => ?_
          obtain ⟨b, c, rfl⟩ := List.exists_cons_of_ne_nil fun hnil => R'.head_pos (hnil ▸ hc)
          obtain ⟨rfl, -⟩ := List.cons_prefix_cons.mp hpre
          exact quote_notMem_rules R' hR' _ hc List.mem_cons_self
        rw [R'.replaceAll_skip hnone, List.tail_cons] at h
        rw [List.tail_cons]
        intro hnot
        have hrest : ∀ b ∈ s, !(b == chr '"') := by
          rw [← List.dropWhile_eq_nil_iff]
          cases hs : s.dropWhile fun a => !(a == chr '"') with
          | nil => rfl
          | cons b t => simp [hs] at hnot
        have hreplaced : ∀ b ∈ R'.replaceAll s, !(b == chr '"') := by
          intro b hb
          rw [Bool.not_eq_true', beq_eq_false_iff_ne]
          rintro rfl
          simpa using hrest _ (quote_mem_of_replaceAll hR' hb)
        rw [List.dropWhile_eq_nil_iff.mpr hreplaced] at h
        exact h rfl
    · exact h

theorem readsOn_rules {R R' : Rule UInt8} (hR : R ∈ rules) (hR' : R' ∈ rules) : ReadsOn R R' := by
  revert R
  simp only [rules, List.forall_mem_cons]
  exact ⟨readsOn_quoted hR', readsOn_plus rfl (by decide) (by decide),
    readsOn_plus rfl (by decide) (by decide), readsOn_plus rfl (by decide) (by decide), by simp⟩

/-! ### Greedy heads -/

theorem greedy_rules : ∀ R ∈ rules, R.Greedy isSpace := by
  have hkey {R : Rule UInt8} {sep : UInt8} (h : R.head = keyHead sep) (hsep : IsSeparator sep) :
      R.Greedy isSpace := by
    obtain ⟨P, hP⟩ := exists_run_seq keyPattern (exists_run_seq blanks (exists_run_seq
      (.cls (· == sep)) (exists_run_many isSpace)))
    exact ⟨longest_of_splits (P := P) (by rw [h]; exact hP),
      by rw [h]; exact captures_keyHead hsep⟩
  have hbearer : bearerPattern.Greedy isSpace := by
    obtain ⟨P, hP⟩ := exists_run_seq (litWord "authorization") (exists_run_seq blanks
      (exists_run_seq (.cls (· == chr ':')) (exists_run_seq blanks (exists_run_seq
        (litWord "bearer") (exists_run_seq (.cls isSpace) (exists_run_many isSpace))))))
    exact ⟨longest_of_splits (P := P) hP, captures_bearerHead⟩
  simp only [rules, List.forall_mem_cons]
  exact ⟨hkey rfl (.inl rfl), hbearer, hkey rfl (.inr rfl), hkey rfl (.inl rfl), by simp⟩

theorem compatible_rules {R R' : Rule UInt8} (hR : R ∈ rules) (hR' : R' ∈ rules) :
    Compatible isSpace R R' where
  greedy := greedy_rules R hR
  apart := apart_rules hR hR'
  apart' := apart_rules hR' hR
  clear := clear_rules hR hR'
  clear' := clear_rules hR' hR
  outside c hc a ha := by
    obtain ⟨w, G, d, hw, -, -, rfl⟩ := headed_rules R' hR' c hc
    obtain ⟨b, v, rfl⟩ := List.exists_cons_of_ne_nil (firstWord_ne_nil hw)
    obtain rfl := Option.some.inj ha
    exact (plain_of_wordByte (firstWord_bytes hw b List.mem_cons_self)).2.2.1
  solid := by
    have hall : ∀ R ∈ rules, ∀ a ∈ R.replacement.head?, isSpace a = false := by decide
    exact hall R hR
  keeps := (readsOn_rules hR hR').keeps
  reads := (readsOn_rules hR hR').reads

end Kasli.Core
