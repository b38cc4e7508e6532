import Kasli.Core.Redact

/-! How the heads of the redaction rules meet a text. Every head is a key word, or
`authorization`, followed by bytes that belong to no word. So a head can only start
where such a word starts, it takes a whole word or none of it, and a key followed by a
separator is never entered from the left. -/

namespace Kasli.Core

open Regex Regex.Pattern

/-- A letter, `_` or `-`. -/
def wordByte (b : UInt8) : Bool :=
  (0x61 ≤ toLower b && toLower b ≤ 0x7A) || toLower b == chr '_' || toLower b == chr '-'

/-- The words a head can start with. -/
def firstWords : List Bytes := ascii "authorization" :: keyWords

/-- `s` contains no key word and no `authorization`, in any case. -/
def NoWords (s : Bytes) : Prop := ∀ w ∈ firstWords, ¬ w <:+: s.map toLower

instance (s : Bytes) : Decidable (NoWords s) := inferInstanceAs (Decidable (∀ w ∈ firstWords, _))

theorem wordByte_toLower (b : UInt8) : wordByte (toLower b) = wordByte b :=
  forall_byte (p := fun b => wordByte (toLower b) = wordByte b) (by decide +kernel) b

theorem not_wordByte_of_isSpace {b : UInt8} (h : isSpace b) : wordByte b = false := by
  revert h
  exact forall_byte (p := fun b => isSpace b → wordByte b = false) (by decide +kernel) b

/-- Word bytes are neither separators, nor quotes, nor blanks. -/
theorem plain_of_wordByte {b : UInt8} (h : wordByte b) :
    notBlankOrQuote b ∧ notBlank b ∧ isSpace b = false ∧ b ≠ chr '"' := by
  revert h
  exact forall_byte (p := fun b => wordByte b →
    notBlankOrQuote b ∧ notBlank b ∧ isSpace b = false ∧ b ≠ chr '"') (by decide +kernel) b

theorem wordByte_of_map {w : Bytes} (h : ∀ b ∈ w.map toLower, wordByte b) : ∀ b ∈ w, wordByte b :=
  fun b hb => wordByte_toLower b ▸ h _ (List.mem_map_of_mem hb)

theorem firstWord_bytes {w : Bytes} (h : w.map toLower ∈ firstWords) : ∀ b ∈ w, wordByte b := by
  have hall : ∀ k ∈ firstWords, ∀ b ∈ k, wordByte b := by decide
  exact wordByte_of_map (hall _ h)

theorem firstWord_ne_nil {w : Bytes} (h : w.map toLower ∈ firstWords) : w ≠ [] := by
  rintro rfl
  revert h
  decide

theorem IsKeyWord.firstWord {w : Bytes} (h : IsKeyWord w) : w.map toLower ∈ firstWords :=
  List.mem_cons_of_mem _ h

/-- No key word ends another word. -/
theorem eq_of_keyWord_suffix {k : Bytes} (hk : IsKeyWord k) {A : Bytes}
    (h : (A ++ k).map toLower ∈ firstWords) : A = [] := by
  have hall : ∀ k ∈ keyWords, ∀ w ∈ firstWords, k <:+ w → k = w := by decide
  rw [List.map_append] at h
  have he := hall _ hk _ h ⟨A.map toLower, rfl⟩
  simpa using congrArg List.length he

/-! ### Words and gaps -/

/-- Two texts that begin with a word and then a byte of no word begin with the same word. -/
theorem word_eq_of_prefixes {w k G z : Bytes} {s : UInt8} (hw : ∀ b ∈ w, wordByte b)
    (hk : ∀ b ∈ k, wordByte b) (hG : ∀ b ∈ G, wordByte b = false) (hne : G ≠ [])
    (hs : wordByte s = false) (c : Bytes) (h : w ++ (G ++ c) <+: k ++ s :: z) : w = k := by
  obtain ⟨t, ht⟩ := h
  obtain ⟨g, G, rfl⟩ := List.exists_cons_of_ne_nil hne
  have hg : wordByte g = false := hG g (by simp)
  have htake := congrArg (List.takeWhile wordByte) ht
  simp only [List.append_assoc, List.cons_append] at htake
  rwa [List.takeWhile_append_of_pos hw, List.takeWhile_append_of_pos hk,
    List.takeWhile_cons_of_neg (by simp [hg]), List.takeWhile_cons_of_neg (by simp [hs]),
    List.append_nil, List.append_nil] at htake

/-- A text of a word, a gap and more, cut where a key and a separator begin: the key ends the
word, or the cut comes after the gap. -/
theorem cut_before_key {w G c A u key z : Bytes} {s : UInt8} (hw : ∀ b ∈ w, wordByte b)
    (hG : ∀ b ∈ G, wordByte b = false) (hne : G ≠ []) (hkey : IsKeyWord key)
    (hs : wordByte s = false) (h : A ++ u = w ++ (G ++ c)) (hu : u ≠ [])
    (hpre : u <+: key ++ s :: z) : w = A ++ key ∨ ∃ A', A = w ++ (G ++ A') ∧ A' ++ u = c := by
  have hk := firstWord_bytes hkey.firstWord
  rcases List.append_eq_append_iff.mp h with ⟨a, rfl, rfl⟩ | ⟨d, rfl, hd⟩
  · rw [word_eq_of_prefixes (fun b hb => hw b (by simp [hb])) hk hG hne hs c hpre]
    exact Or.inl rfl
  · rcases List.append_eq_append_iff.mp hd with ⟨a, rfl, rfl⟩ | ⟨a, rfl, rfl⟩
    · exact Or.inr ⟨a, rfl, rfl⟩
    · -- the cut would fall inside the gap, but a key begins there
      rcases a with _ | ⟨g, a⟩
      · exact Or.inr ⟨[], by simp, by simp⟩
      · have hga : ∀ b ∈ g :: a, wordByte b = false :=
          fun b hb => hG b (List.mem_append_right d hb)
        have he := word_eq_of_prefixes (w := []) (by simp) hk hga (by simp) hs c hpre
        exact absurd he.symm (firstWord_ne_nil hkey.firstWord)

/-- The first word of a head, the gap after it, and the rest. -/
def Headed (R : Rule UInt8) : Prop :=
  ∀ c ∈ R.head.Lang, ∃ w G d, w.map toLower ∈ firstWords ∧ (∀ b ∈ G, wordByte b = false) ∧ G ≠ [] ∧
    c = w ++ (G ++ d)

/-- No head is entered from the left at a key and a separator. -/
def Guarded (R : Rule UInt8) : Prop :=
  ∀ c ∈ R.head.Lang, ∀ A key z s, A ≠ [] → IsKeyWord key → wordByte s = false →
    c <+: A ++ (key ++ s :: z) → c.length ≤ A.length

theorem gap_of_spaces {g g' : Bytes} {sep : UInt8} (hg : ∀ b ∈ g, isSpace b)
    (hs : wordByte sep = false) (hg' : ∀ b ∈ g', isSpace b) :
    ∀ b ∈ g ++ sep :: g', wordByte b = false := by
  intro b hb
  simp only [List.mem_append, List.mem_cons] at hb
  rcases hb with hb | rfl | hb
  · exact not_wordByte_of_isSpace (hg b hb)
  · exact hs
  · exact not_wordByte_of_isSpace (hg' b hb)

theorem prefix_append_cases {c A t : Bytes} (h : c <+: A ++ t) (hlt : A.length < c.length) :
    ∃ u, u ≠ [] ∧ A ++ u = c ∧ u <+: t := by
  obtain ⟨u, rfl⟩ := List.prefix_of_prefix_length_le (List.prefix_append A t) h hlt.le
  refine ⟨u, ?_, rfl, (List.prefix_append_right_inj A).mp h⟩
  rintro rfl
  simp at hlt

theorem headed_keyHead {R : Rule UInt8} {sep : UInt8} (h : R.head = keyHead sep)
    (hs : wordByte sep = false) : Headed R := by
  intro c hc
  obtain ⟨w, g, g', hw, hg, hg', rfl⟩ := mem_keyHead.mp (h ▸ hc)
  exact ⟨w, g ++ sep :: g', [], hw.firstWord, gap_of_spaces hg hs hg', by simp, by simp⟩

theorem guarded_keyHead {R : Rule UInt8} {sep : UInt8} (h : R.head = keyHead sep)
    (hs : wordByte sep = false) : Guarded R := by
  intro c hc A key z s hA hkey hsk hpre
  by_contra hlt
  obtain ⟨w, g, g', hw, hg, hg', rfl⟩ := mem_keyHead.mp (h ▸ hc)
  obtain ⟨u, hu, he, hup⟩ := prefix_append_cases hpre (by omega)
  rcases cut_before_key (c := []) (firstWord_bytes hw.firstWord) (gap_of_spaces hg hs hg') (by simp)
    hkey hsk (by simpa using he) hu hup with rfl | ⟨A', -, h'⟩
  · exact hA (eq_of_keyWord_suffix hkey hw.firstWord)
  · simp [hu] at h'

theorem bearer_word {w : Bytes} (h : w.map toLower = ascii "bearer") : ∀ b ∈ w, wordByte b :=
  wordByte_of_map (by rw [h]; decide)

theorem headed_bearer : Headed bearerPattern := by
  intro c hc
  obtain ⟨w, g, g', w', g'', hw, hg, hg', -, -, -, rfl⟩ := mem_bearerHead.mp hc
  refine ⟨w, g ++ chr ':' :: g', w' ++ g'', ?_, gap_of_spaces hg (by decide) hg', by simp, by simp⟩
  rw [hw]
  decide

theorem guarded_bearer : Guarded bearerPattern := by
  intro c hc A key z s hA hkey hsk hpre
  by_contra hlt
  obtain ⟨w, g, g', w', g'', hw, hg, hg', hw', hne, hg'', rfl⟩ := mem_bearerHead.mp hc
  have hwf : w.map toLower ∈ firstWords := by rw [hw]; decide
  obtain ⟨u, hu, he, hup⟩ := prefix_append_cases hpre (by omega)
  have hcolon : wordByte (chr ':') = false := by decide
  rcases cut_before_key (c := w' ++ g'') (firstWord_bytes hwf) (gap_of_spaces hg hcolon hg')
    (by simp) hkey hsk (by simpa using he) hu hup with rfl | ⟨A', -, h'⟩
  · exact hA (eq_of_keyWord_suffix hkey hwf)
  · rcases cut_before_key (c := []) (bearer_word hw')
      (fun b hb => not_wordByte_of_isSpace (hg'' b hb)) hne hkey hsk (by simpa using h') hu hup
      with rfl | ⟨A'', -, h''⟩
    · -- a key word would end `bearer`
      have hall : ∀ k ∈ keyWords, ¬ k <:+ ascii "bearer" := by decide
      rw [List.map_append] at hw'
      exact hall _ hkey ⟨A'.map toLower, hw'⟩
    · simp [hu] at h''

theorem Guarded.headLocal {R : Rule UInt8} (h : Guarded R) {key : Bytes} {s : UInt8}
    (hkey : IsKeyWord key) (hs : wordByte s = false) {W : Set Bytes}
    (hW : ∀ w ∈ W, ∃ z, w = key ++ s :: z) (X : Bytes) : R.HeadLocal W X := by
  intro A _ hA w hw c hc hpre
  obtain ⟨z, rfl⟩ := hW w hw
  exact h c hc A key z s hA hkey hs hpre

/-! ### Positions without a match -/

variable {R : Rule UInt8} (hR : Headed R)

include hR in
/-- A word that is followed by a byte of no word starts a match only if it is a first word. -/
theorem Headed.none_of_word {k z : Bytes} {s : UInt8} (hk : ∀ b ∈ k, wordByte b)
    (hs : wordByte s = false) (hnot : k.map toLower ∉ firstWords) :
    R.firstMatch (k ++ s :: z) = none := by
  apply R.firstMatch_eq_none
  intro c hc hpre
  obtain ⟨w, G, d, hw, hG, hne, rfl⟩ := hR c hc
  rw [word_eq_of_prefixes (firstWord_bytes hw) hk hG hne hs d hpre] at hw
  exact hnot hw

include hR in
/-- Nothing starts in a text that contains no first word, up to its end or a byte of no word. -/
theorem Headed.none_of_noWords {s' s t : Bytes} (hs : NoWords s) (hsuf : s' <:+ s)
    (ht : ∀ b ∈ t.head?, wordByte b = false) : R.firstMatch (s' ++ t) = none := by
  apply R.firstMatch_eq_none
  intro c hc hpre
  obtain ⟨w, G, d, hw, hG, hGne, rfl⟩ := hR c hc
  have hwp : w <+: s' ++ t := (List.prefix_append w _).trans hpre
  have hle : w.length ≤ s'.length := by
    by_contra hlt
    obtain ⟨u, hu, rfl, hup⟩ := prefix_append_cases hwp (by omega)
    obtain ⟨b, u, rfl⟩ := List.exists_cons_of_ne_nil hu
    obtain ⟨r, rfl⟩ := hup
    have hb := firstWord_bytes hw b (by simp)
    simp [ht b rfl] at hb
  have hws : w <+: s' := List.prefix_of_prefix_length_le hwp (List.prefix_append s' t) hle
  exact hs _ hw ((hws.isInfix.trans hsuf.isInfix).map toLower)

end Kasli.Core
