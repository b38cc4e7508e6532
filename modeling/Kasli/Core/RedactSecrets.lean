import Kasli.Core.RedactWords
import Mathlib.Data.List.Infix

/-! What redaction hides. An unquoted value after `key=` or `key:` never shows: in
each pass an earlier match swallows key and value together, or the pass leaves them
alone, or it is the pass of their separator and replaces the value. A quoted value is
hidden after `=` only: the rule for `:` knows no quotes and stops at the first blank. -/

namespace Kasli.Core

open Regex Regex.Pattern

/-- A value without blanks, quotes and first words. -/
def UnquotedValue (v : Bytes) : Prop :=
  v ≠ [] ∧ (∀ b ∈ v, isSpace b = false ∧ b ≠ chr '"') ∧ NoWords v

instance (v : Bytes) : Decidable (UnquotedValue v) := inferInstanceAs (Decidable (_ ∧ _ ∧ _))

/-- The text is empty or begins with a space, a tab, CR or LF. -/
def EndsValue (post : Bytes) : Prop := ∀ b ∈ post.head?, notBlank b = false

instance (post : Bytes) : Decidable (EndsValue post) :=
  inferInstanceAs (Decidable (∀ b ∈ post.head?, notBlank b = false))

theorem not_wordByte_of_blank {b : UInt8} (h : notBlank b = false) : wordByte b = false := by
  by_contra hw
  have hp := (plain_of_wordByte (by simpa using hw)).2.1
  simp [h] at hp

theorem notBlank_of_not_space {b : UInt8} (h : isSpace b = false) : notBlank b := by
  revert h
  exact forall_byte (p := fun b => isSpace b = false → notBlank b) (by decide +kernel) b

/-! ### At a key -/

/-- A first word that ends a key is the key. -/
theorem not_firstWord_of_suffix {key s' : Bytes} (hkey : IsKeyWord key) (hs : s' <:+ key)
    (hne : s' ≠ key) : s'.map toLower ∉ firstWords := by
  have hall : ∀ k ∈ keyWords, ∀ w ∈ firstWords, w <:+ k → w = k := by decide
  intro hf
  apply hne
  have he := hall _ hkey _ hf (hs.map toLower)
  exact hs.eq_of_length (by simpa using congrArg List.length he)

/-- A head of `sep` that begins at a key takes it, the separator, and blanks. -/
theorem keyHead_at_key {sep s : UInt8} {key z c : Bytes} (hkey : IsKeyWord key)
    (hsep : wordByte sep = false) (hs : wordByte s = false) (hsp : isSpace s = false)
    (hc : c ∈ (keyHead sep).Lang) (hpre : c <+: key ++ s :: z) :
    s = sep ∧ ∃ g, (∀ b ∈ g, isSpace b) ∧ c = key ++ sep :: g := by
  obtain ⟨w, g, g', hw, hg, hg', rfl⟩ := mem_keyHead.mp hc
  obtain rfl := word_eq_of_prefixes (firstWord_bytes hw.firstWord) (firstWord_bytes hkey.firstWord)
    (gap_of_spaces hg hsep hg') (by simp) hs [] (by simpa using hpre)
  have hgap := (List.prefix_append_right_inj w).mp hpre
  rcases g with _ | ⟨b, g⟩
  · exact ⟨(List.cons_prefix_cons.mp hgap).1.symm, g', hg', rfl⟩
  · have hb := hg b (by simp)
    rw [(List.cons_prefix_cons.mp hgap).1, hsp] at hb
    exact absurd hb (by decide)

theorem none_at_other_key {R : Rule UInt8} {sep s : UInt8} (h : R.head = keyHead sep)
    (hsep : wordByte sep = false) {key z : Bytes} (hkey : IsKeyWord key) (hs : wordByte s = false)
    (hsp : isSpace s = false) (hne : s ≠ sep) : R.firstMatch (key ++ s :: z) = none :=
  R.firstMatch_eq_none fun _ hc hpre =>
    hne (keyHead_at_key hkey hsep hs hsp (h ▸ hc) hpre).1

theorem bearer_none_at_key {key z : Bytes} {s : UInt8} (hkey : IsKeyWord key)
    (hs : wordByte s = false) : bearerPattern.firstMatch (key ++ s :: z) = none := by
  apply bearerPattern.firstMatch_eq_none
  intro c hc hpre
  obtain ⟨w, g, g', w', g'', hw, hg, hg', -, -, -, rfl⟩ := mem_bearerHead.mp hc
  have hwf : w.map toLower ∈ firstWords := by rw [hw]; decide
  have hcolon : wordByte (chr ':') = false := by decide
  obtain rfl := word_eq_of_prefixes (firstWord_bytes hwf) (firstWord_bytes hkey.firstWord)
    (gap_of_spaces hg hcolon hg') (by simp) hs (w' ++ g'') (by simpa using hpre)
  have hall : ascii "authorization" ∉ keyWords := by decide
  exact hall (hw ▸ hkey)

/-- Inside a key, and at a key no rule of `R` begins with, nothing matches. -/
theorem replaceAll_key {R : Rule UInt8} (hR : Headed R) {key z : Bytes} {s : UInt8}
    (hkey : IsKeyWord key) (hs : wordByte s = false) (hnone : R.firstMatch (key ++ s :: z) = none) :
    R.replaceAll (key ++ s :: z) = key ++ s :: R.replaceAll z := by
  have hat : R.firstMatch (s :: z) = none :=
    hR.none_of_word (k := []) (by simp) hs (by decide)
  rw [R.replaceAll_append_of_none, R.replaceAll_skip hat]
  intro s' hsuf _
  rcases eq_or_ne s' key with rfl | hne
  · exact hnone
  · exact hR.none_of_word (fun b hb => firstWord_bytes hkey.firstWord b (hsuf.subset hb)) hs
      (not_firstWord_of_suffix hkey hsuf hne)

theorem replaceAll_noWords {R : Rule UInt8} (hR : Headed R) {s t : Bytes} (hs : NoWords s)
    (ht : ∀ b ∈ t.head?, wordByte b = false) : R.replaceAll (s ++ t) = s ++ R.replaceAll t :=
  R.replaceAll_append_of_none fun _ hsuf _ => hR.none_of_noWords hs hsuf ht

/-- The capture of a head at a key, before a text that begins with no blank, takes all the spaces
in between unless it leaves one to the tail. -/
theorem keyHead_capture {sep : UInt8} {key g z c r : Bytes} (hkey : IsKeyWord key)
    (hsep : wordByte sep = false) (hsp : isSpace sep = false) (hg : ∀ b ∈ g, b = 0x20)
    (hz : ∀ b ∈ z.head?, isSpace b = false) (hc : c ∈ (keyHead sep).Lang)
    (hcr : c ++ r = key ++ sep :: (g ++ z)) (hr : r.head? ≠ some 0x20) : c = key ++ sep :: g := by
  obtain ⟨-, g', hg', rfl⟩ := keyHead_at_key hkey hsep hsep hsp hc ⟨r, hcr⟩
  simp only [List.append_assoc, List.cons_append, List.append_cancel_left_eq, List.cons.injEq,
    true_and] at hcr
  rcases List.append_eq_append_iff.mp hcr with ⟨a, rfl, rfl⟩ | ⟨a, rfl, rfl⟩
  · rcases a with _ | ⟨x, a⟩
    · simp
    · simp [hg x (by simp)] at hr
  · rcases a with _ | ⟨x, a⟩
    · simp
    · have hx := hg' x (by simp)
      rw [hz x (by simp)] at hx
      exact absurd hx (by decide)

theorem mem_keyHead_of_spaces {sep : UInt8} {key g : Bytes} (hkey : IsKeyWord key)
    (hg : ∀ b ∈ g, b = 0x20) : key ++ sep :: g ∈ (keyHead sep).Lang :=
  mem_keyHead.mpr ⟨key, [], g, hkey, by simp, fun b hb => by rw [hg b hb]; decide, rfl⟩

/-- A rule for `sep` and a class replaces the run after `key sep` and spaces. -/
theorem replaceAll_at_key {R : Rule UInt8} {sep b : UInt8} {p : UInt8 → Bool}
    (hhead : R.head = keyHead sep) (htail : R.tail = plus p) (hp : p 0x20 = false)
    (hsep : wordByte sep = false) (hsp : isSpace sep = false) {key g z : Bytes}
    (hkey : IsKeyWord key) (hg : ∀ b ∈ g, b = 0x20) (hb : isSpace b = false) (hpb : p b) :
    R.replaceAll (key ++ sep :: (g ++ b :: z)) =
      key ++ sep :: (g ++ R.replacement) ++ R.replaceAll ((b :: z).dropWhile p) := by
  have hrest : R.tailRest (b :: z) = some ((b :: z).dropWhile p) := by
    rw [R.tailRest_plus htail]
    simp [hpb]
  have hkept : key ++ sep :: g ∈ R.head.Lang := hhead ▸ mem_keyHead_of_spaces hkey hg
  rw [R.replaceAll_hit (R.firstMatch_eq_of_unique hkept (by simp) hrest ?_)]
  · simp
  · intro c hc r hcr hr
    refine keyHead_capture hkey hsep hsp hg (by simp [hb]) (hhead ▸ hc) hcr fun hr' => hr ?_
    rw [R.tailRest_plus htail]
    simp [hr', hp]

/-! ### Unquoted values -/

/-- A key, a separator and an admissible value, followed by a fixed text. -/
def blocks (key : Bytes) (sep : UInt8) (post : Bytes) : Set Bytes :=
  {x | ∃ v, UnquotedValue v ∧ x = key ++ sep :: (v ++ post)}

/-- One of the two separators. -/
def IsSeparator (sep : UInt8) : Prop := sep = chr '=' ∨ sep = chr ':'

instance (sep : UInt8) : Decidable (IsSeparator sep) := inferInstanceAs (Decidable (_ ∨ _))

theorem IsSeparator.plain {sep : UInt8} (h : IsSeparator sep) :
    wordByte sep = false ∧ isSpace sep = false ∧ notBlank sep ∧ notBlankOrQuote sep ∧
      sep ≠ chr '"' := by
  rcases h with rfl | rfl <;> decide

theorem notBlankOrQuote_iff {b : UInt8} : notBlankOrQuote b ↔ b ≠ chr '"' ∧ notBlank b := by
  simp [notBlankOrQuote]

theorem tailUniform_blocks_plus {R : Rule UInt8} {p : UInt8 → Bool} (h : R.tail = plus p)
    (hp : ∀ b, notBlankOrQuote b → p b) (hpost : ∀ b, notBlank b = false → p b = false)
    {key post : Bytes} {sep : UInt8} (hkey : IsKeyWord key) (hsep : IsSeparator sep)
    (he : EndsValue post) (r : Bytes) : R.TailUniform (blocks key sep post) r := by
  apply R.tailUniform_plus h (y := post)
  rintro _ ⟨v, ⟨-, hv, -⟩, rfl⟩
  have hkp : ∀ b ∈ key, p b :=
    fun b hb => hp b (plain_of_wordByte (firstWord_bytes hkey.firstWord b hb)).1
  have hvp : ∀ b ∈ v, p b := fun b hb =>
    hp b (notBlankOrQuote_iff.mpr ⟨(hv b hb).2, notBlank_of_not_space (hv b hb).1⟩)
  have hsp := hp sep hsep.plain.2.2.2.1
  constructor
  · obtain ⟨a, k, rfl⟩ := List.exists_cons_of_ne_nil (firstWord_ne_nil hkey.firstWord)
    simpa using hkp a (by simp)
  · rw [List.dropWhile_append_of_pos hkp, List.dropWhile_cons_of_pos hsp,
      List.dropWhile_append_of_pos hvp]
    cases post with
    | nil => rfl
    | cons b post => rw [List.dropWhile_cons_of_neg (by simp [hpost b (he b rfl)])]

theorem tailUniform_blocks_delimited {R : Rule UInt8} (h : R.tail = delimited (· == chr '"'))
    {key post : Bytes} {sep : UInt8} (hkey : IsKeyWord key) (hsep : IsSeparator sep) (r : Bytes) :
    R.TailUniform (blocks key sep post) r := by
  apply R.tailUniform_delimited h (y := post.dropWhile fun a => !(a == chr '"'))
  rintro _ ⟨v, ⟨-, hv, -⟩, rfl⟩
  have hkq : ∀ b ∈ key, b ≠ chr '"' := fun b hb =>
    (plain_of_wordByte (firstWord_bytes hkey.firstWord b hb)).2.2.2
  constructor
  · obtain ⟨a, k, rfl⟩ := List.exists_cons_of_ne_nil (firstWord_ne_nil hkey.firstWord)
    simpa using hkq a (by simp)
  · rw [List.dropWhile_append_of_pos (by simpa using hkq),
      List.dropWhile_cons_of_pos (by simpa using hsep.plain.2.2.2.2),
      List.dropWhile_append_of_pos (by simpa using fun b hb => (hv b hb).2)]

theorem endsValue_replaceAll {R : Rule UInt8} (hR : Headed R) {post : Bytes} (h : EndsValue post) :
    EndsValue (R.replaceAll post) := by
  cases post with
  | nil => exact h
  | cons b post =>
    have hb : notBlank b = false := h b rfl
    rw [R.replaceAll_skip (hR.none_of_word (k := []) (by simp)
      (not_wordByte_of_blank hb) (by decide))]
    simpa [EndsValue] using hb

variable {R : Rule UInt8} {key post : Bytes} {sep : UInt8}

/-- A pass of another rule swallows the value or leaves it alone, whatever the value is. -/
theorem replaceAll_keeps_block (hR : Headed R) (hG : Guarded R) (hkey : IsKeyWord key)
    (hsep : IsSeparator sep)
    (hnone : ∀ v, UnquotedValue v → R.firstMatch (key ++ sep :: (v ++ post)) = none)
    (htail : ∀ r, R.TailUniform (blocks key sep post) r) (hpost : EndsValue post) (pre : Bytes) :
    (∃ out, ∀ v, UnquotedValue v → R.replaceAll (pre ++ (key ++ sep :: (v ++ post))) = out) ∨
      ∃ pre' post', EndsValue post' ∧ ∀ v, UnquotedValue v →
        R.replaceAll (pre ++ (key ++ sep :: (v ++ post))) = pre' ++
          (key ++ sep :: (v ++ post')) := by
  have hlocal := hG.headLocal hkey hsep.plain.1 (W := blocks key sep post)
    (by rintro _ ⟨v, -, rfl⟩; exact ⟨_, rfl⟩) pre
  rcases R.replaceAll_uniform pre hlocal (fun r _ => htail r) with ⟨out, ho⟩ | ⟨out, ho⟩
  · exact Or.inl ⟨out, fun v hv => ho _ ⟨v, hv, rfl⟩⟩
  · refine Or.inr ⟨out, R.replaceAll post, endsValue_replaceAll hR hpost, fun v hv => ?_⟩
    have hend : ∀ b ∈ post.head?, wordByte b = false :=
      fun b hb => not_wordByte_of_blank (hpost b hb)
    rw [ho _ ⟨v, hv, rfl⟩, replaceAll_key hR hkey hsep.plain.1 (hnone v hv),
      replaceAll_noWords hR hv.2.2 hend]

/-- The pass of the separator hides the value. -/
theorem replaceAll_hides_block {p : UInt8 → Bool} (hG : Guarded R) (hhead : R.head = keyHead sep)
    (htail : R.tail = plus p) (hp : ∀ b, notBlankOrQuote b → p b)
    (hblank : ∀ b, notBlank b = false → p b = false) (hkey : IsKeyWord key) (hsep : IsSeparator sep)
    (hpost : EndsValue post) (pre : Bytes) :
    ∃ out, ∀ v, UnquotedValue v → R.replaceAll (pre ++ (key ++ sep :: (v ++ post))) = out := by
  have hlocal := hG.headLocal hkey hsep.plain.1 (W := blocks key sep post)
    (by rintro _ ⟨v, -, rfl⟩; exact ⟨_, rfl⟩) pre
  rcases R.replaceAll_uniform pre hlocal
    (fun r _ => tailUniform_blocks_plus htail hp hblank hkey hsep hpost r) with ⟨out, ho⟩ | ⟨out,
      ho⟩
  · exact ⟨out, fun v hv => ho _ ⟨v, hv, rfl⟩⟩
  · refine ⟨out ++ (key ++ sep :: ([] ++ R.replacement) ++ R.replaceAll post), fun v hv => ?_⟩
    have hvp : ∀ b ∈ v, p b := fun b hb =>
      hp b (notBlankOrQuote_iff.mpr ⟨(hv.2.1 b hb).2, notBlank_of_not_space (hv.2.1 b hb).1⟩)
    have hdrop : (v ++ post).dropWhile p = post := by
      rw [List.dropWhile_append_of_pos hvp]
      cases post with
      | nil => rfl
      | cons b post => rw [List.dropWhile_cons_of_neg (by simp [hblank b (hpost b rfl)])]
    obtain ⟨b, v', rfl⟩ := List.exists_cons_of_ne_nil hv.1
    have hat := replaceAll_at_key (g := []) (z := v' ++ post) hhead htail (hblank _ (by decide))
      hsep.plain.1 hsep.plain.2.1 hkey (by simp) (hv.2.1 b (by simp)).1 (hvp b (by simp))
    rw [show (b :: (v' ++ post)).dropWhile p = post from hdrop] at hat
    rw [ho _ ⟨_, hv, rfl⟩]
    exact congrArg (out ++ ·) hat

theorem notBlankOrQuote_of_blank (b : UInt8) (h : notBlank b = false) :
    notBlankOrQuote b = false := by
  simp [notBlankOrQuote, h]

theorem notBlank_of_notBlankOrQuote (b : UInt8) (h : notBlankOrQuote b) : notBlank b :=
  (notBlankOrQuote_iff.mp h).2

/-- The quoted rule needs a quote right after the blanks that follow the separator. -/
theorem quoted_none_at_key {b : UInt8} {z : Bytes} (hkey : IsKeyWord key) (hsep : IsSeparator sep)
    (hb : isSpace b = false) (hq : b ≠ chr '"') :
    quotedAssignmentPattern.firstMatch (key ++ sep :: b :: z) = none := by
  rcases hm : quotedAssignmentPattern.firstMatch (key ++ sep :: b :: z) with _ | ⟨kept, rest⟩
  · rfl
  obtain ⟨hk, r, hs, hr⟩ := quotedAssignmentPattern.firstMatch_eq_some hm
  obtain ⟨rfl, g, hg, rfl⟩ := keyHead_at_key hkey (by decide) hsep.plain.1 hsep.plain.2.1 hk ⟨r, hs⟩
  simp only [List.append_assoc, List.cons_append, List.append_cancel_left_eq, List.cons.injEq,
    true_and] at hs
  rw [quotedAssignmentPattern.tailRest_delimited rfl] at hr
  rcases g with _ | ⟨a, g⟩
  · rw [List.nil_append] at hs
    simp [hs, hq] at hr
  · have ha := hg a (by simp)
    rw [(List.cons.inj hs).1, hb] at ha
    exact absurd ha (by decide)

/-- No byte of an unquoted value after a key and a separator shows in the redacted text. -/
theorem redactLikelySecret_hides (hkey : IsKeyWord key) (hsep : IsSeparator sep)
    (hpost : EndsValue post) (pre : Bytes) :
    ∃ out, ∀ v, UnquotedValue v →
      redactLikelySecret (pre ++ (key ++ sep :: (v ++ post))) = out := by
  simp only [redactLikelySecret]
  have heq : wordByte (chr '=') = false := by decide
  have hcolon : wordByte (chr ':') = false := by decide
  -- the quoted rule
  rcases replaceAll_keeps_block (headed_keyHead rfl heq) (guarded_keyHead rfl heq) hkey hsep
    (fun v hv => by
      obtain ⟨b, v, rfl⟩ := List.exists_cons_of_ne_nil hv.1
      have hb := hv.2.1 b (by simp)
      exact quoted_none_at_key hkey hsep hb.1 hb.2)
    (fun r => tailUniform_blocks_delimited (R := quotedAssignmentPattern) rfl hkey hsep r) hpost pre
    with ⟨out, ho⟩ | ⟨pre₁, post₁, hpost₁, h₁⟩
  · exact ⟨_, fun v hv => by rw [ho v hv]⟩
  -- the bearer rule
  rcases replaceAll_keeps_block headed_bearer guarded_bearer hkey hsep
    (fun v _ => bearer_none_at_key hkey hsep.plain.1)
    (fun r => tailUniform_blocks_plus (R := bearerPattern) rfl notBlank_of_notBlankOrQuote
      (fun _ h => h) hkey hsep hpost₁ r) hpost₁ pre₁
    with ⟨out, ho⟩ | ⟨pre₂, post₂, hpost₂, h₂⟩
  · exact ⟨_, fun v hv => by rw [h₁ v hv, ho v hv]⟩
  rcases hsep with rfl | rfl
  · -- after `=` the colon rule passes and the assignment rule hides
    rcases replaceAll_keeps_block (headed_keyHead rfl hcolon) (guarded_keyHead rfl hcolon) hkey
      (Or.inl rfl) (fun v _ => none_at_other_key (R := colonPattern) rfl hcolon hkey heq (by decide)
        (by decide))
      (fun r => tailUniform_blocks_plus (R := colonPattern) rfl notBlank_of_notBlankOrQuote
        (fun _ h => h) hkey (Or.inl rfl) hpost₂ r) hpost₂ pre₂
      with ⟨out, ho⟩ | ⟨pre₃, post₃, hpost₃, h₃⟩
    · exact ⟨_, fun v hv => by rw [h₁ v hv, h₂ v hv, ho v hv]⟩
    obtain ⟨out, ho⟩ := replaceAll_hides_block (R := assignmentPattern)
      (guarded_keyHead rfl heq) rfl rfl
      (fun _ h => h) notBlankOrQuote_of_blank hkey (Or.inl rfl) hpost₃ pre₃
    exact ⟨out, fun v hv => by rw [h₁ v hv, h₂ v hv, h₃ v hv, ho v hv]⟩
  · obtain ⟨out, ho⟩ := replaceAll_hides_block (R := colonPattern)
      (guarded_keyHead rfl hcolon) rfl rfl
      notBlank_of_notBlankOrQuote (fun _ h => h) hkey (Or.inr rfl) hpost₂ pre₂
    exact ⟨_, fun v hv => by rw [h₁ v hv, h₂ v hv, ho v hv]⟩

/-- Redaction noninterference for unquoted secrets. -/
theorem redactLikelySecret_unquoted (pre key v₁ v₂ post : Bytes) (sep : UInt8)
    (hkey : IsKeyWord key)
    (hsep : IsSeparator sep) (hv₁ : UnquotedValue v₁) (hv₂ : UnquotedValue v₂)
    (hpost : EndsValue post) : redactLikelySecret (pre ++ key ++ [sep] ++ v₁ ++ post) =
      redactLikelySecret (pre ++ key ++ [sep] ++ v₂ ++ post) := by
  obtain ⟨out, ho⟩ := redactLikelySecret_hides hkey hsep hpost pre
  have h₁ := ho v₁ hv₁
  have h₂ := ho v₂ hv₂
  simp only [List.append_assoc, List.singleton_append] at h₁ h₂ ⊢
  exact h₁.trans h₂.symm

theorem redactLikelySecret_unquoted_token :
    redactLikelySecret (ascii "x \"" ++ ascii "Token" ++ [chr '='] ++ ascii "a:1" ++ ascii " y") =
      redactLikelySecret (ascii "x \"" ++ ascii "Token" ++ [chr '='] ++
        ascii "hunter2" ++ ascii " y") :=
  redactLikelySecret_unquoted _ _ _ _ _ _ (by decide) (by decide) (by decide +kernel)
    (by decide +kernel) (by decide)

/-! ### Quoted values -/

/-- A value that may stand between quotes. -/
def QuotedValue (v : Bytes) : Prop := v ≠ [] ∧ chr '"' ∉ v

instance (v : Bytes) : Decidable (QuotedValue v) := inferInstanceAs (Decidable (_ ∧ _))

/-- A surrounding text without quotes and first words. -/
def PlainContext (s : Bytes) : Prop := chr '"' ∉ s ∧ NoWords s

instance (s : Bytes) : Decidable (PlainContext s) := inferInstanceAs (Decidable (_ ∧ _))

/-- Nothing starts before a key in a text without first words. -/
theorem replaceAll_before_key {R : Rule UInt8} (hR : Headed R) (hG : Guarded R) {pre key z : Bytes}
    {sep : UInt8} (hpre : NoWords pre) (hkey : IsKeyWord key) (hsep : wordByte sep = false) :
    R.replaceAll (pre ++ (key ++ sep :: z)) = pre ++ R.replaceAll (key ++ sep :: z) := by
  apply R.replaceAll_append_of_none
  intro A hsuf hA
  apply R.firstMatch_eq_none
  intro c hc hp
  obtain ⟨w, G, d, hw, -, -, rfl⟩ := hR c hc
  have hle := hG _ hc A key z sep hA hkey hsep hp
  have hwA : w <+: A := (List.prefix_append w _).trans
    (List.prefix_of_prefix_length_le hp (List.prefix_append A _) hle)
  exact hpre _ hw ((hwA.isInfix.trans hsuf.isInfix).map toLower)

/-- Bytes of no word are copied. -/
theorem replaceAll_gap {R : Rule UInt8} (hR : Headed R) {g z : Bytes}
    (hg : ∀ b ∈ g, wordByte b = false) : R.replaceAll (g ++ z) = g ++ R.replaceAll z := by
  induction g with
  | nil => rfl
  | cons b g ih =>
    have hb := hR.none_of_word (k := []) (z := g ++ z) (by simp) (hg b (by simp)) (by decide)
    rw [List.cons_append, R.replaceAll_skip hb, ih fun a ha => hg a (by simp [ha]),
      List.cons_append]

/-- A word that ends no first word is copied when a byte of no word follows. -/
theorem replaceAll_word {R : Rule UInt8} (hR : Headed R) {k z : Bytes} {s : UInt8}
    (hk : ∀ b ∈ k, wordByte b) (hs : wordByte s = false)
    (hnot : ∀ k', k' <:+ k → k'.map toLower ∉ firstWords) :
    R.replaceAll (k ++ s :: z) = k ++ s :: R.replaceAll z := by
  have hat : R.firstMatch (s :: z) = none := hR.none_of_word (k := []) (by simp) hs (by decide)
  rw [R.replaceAll_append_of_none, R.replaceAll_skip hat]
  exact fun s' hsuf _ => hR.none_of_word (fun b hb => hk b (hsuf.subset hb)) hs (hnot s' hsuf)

theorem replaceAll_plain {R : Rule UInt8} (hR : Headed R) {s : Bytes} (hs : NoWords s) :
    R.replaceAll s = s := by
  simpa using replaceAll_noWords hR (t := []) hs (by simp)

/-- After `=` the quoted rule replaces the whole value. -/
theorem quoted_hides {pre sp v : Bytes} (hpre : NoWords pre) (hkey : IsKeyWord key)
    (hsp : ∀ b ∈ sp, b = 0x20) (hv : QuotedValue v) :
    quotedAssignmentPattern.replaceAll
        (pre ++ (key ++ chr '=' :: (sp ++ chr '"' :: (v ++ chr '"' :: post)))) =
      pre ++ (key ++ chr '=' :: sp ++ ascii "\"[REDACTED]\"" ++
        quotedAssignmentPattern.replaceAll post) := by
  have heq : wordByte (chr '=') = false := by decide
  rw [replaceAll_before_key (headed_keyHead rfl heq) (guarded_keyHead rfl heq) hpre hkey heq]
  have hrest : quotedAssignmentPattern.tailRest (chr '"' :: (v ++ chr '"' :: post)) =
      some post := by
    rw [quotedAssignmentPattern.tailRest_delimited rfl]
    have hvq : ∀ b ∈ v, (!(b == chr '"')) = true := by
      intro b hb
      have hne : b ≠ chr '"' := fun he => hv.2 (he ▸ hb)
      simpa using hne
    simp only [List.head?_cons, Option.any_some, BEq.rfl, ↓reduceIte, List.tail_cons]
    rw [List.dropWhile_append_of_pos hvq]
    simp
  rw [quotedAssignmentPattern.replaceAll_hit
    (quotedAssignmentPattern.firstMatch_eq_of_unique (mem_keyHead_of_spaces hkey hsp)
      (by simp) hrest ?_)]
  · rfl
  · intro c hc r hcr hr
    refine keyHead_capture hkey heq (by decide) hsp (by simp; decide) hc hcr fun hr' => hr ?_
    rw [quotedAssignmentPattern.tailRest_delimited rfl, hr']
    rfl

theorem not_firstWord_of_short {k : Bytes} (h : k.length ≤ 1) : k.map toLower ∉ firstWords := by
  have hall : ∀ w ∈ firstWords, 1 < w.length := by decide
  intro hf
  have hlt := hall _ hf
  rw [List.length_map] at hlt
  omega

/-- A single letter between bytes of no word is copied. -/
theorem replaceAll_letter (hR : Headed R) {x s : UInt8} {z : Bytes} (hx : wordByte x)
    (hs : wordByte s = false) : R.replaceAll (x :: s :: z) = x :: s :: R.replaceAll z :=
  replaceAll_word hR (k := [x]) (by simpa using hx) hs fun _ hsuf =>
    not_firstWord_of_short hsuf.length_le

/-- What stands after the separator in the example values is copied by every rule. -/
theorem replaceAll_copies_letter (hR : Headed R) {x : UInt8} (hx : wordByte x)
    (hpost : NoWords post) :
    R.replaceAll (0x20 :: x :: chr '"' :: post) = 0x20 :: x :: chr '"' :: post := by
  have hgap := replaceAll_gap hR (g := [0x20]) (z := x :: chr '"' :: post) (by decide)
  rw [List.singleton_append, List.singleton_append] at hgap
  rw [hgap, replaceAll_letter hR hx (by decide), replaceAll_plain hR hpost]

/-- After `:` only the text up to the first blank of the value is replaced. -/
theorem redactLikelySecret_colon_quoted {pre sp : Bytes} {x : UInt8} (hpre : NoWords pre)
    (hkey : IsKeyWord key) (hsp : ∀ b ∈ sp, b = 0x20) (hpost : NoWords post) (hx : wordByte x) :
    redactLikelySecret
        (pre ++ (key ++ chr ':' :: (sp ++ chr '"' :: chr 'a' :: 0x20 :: x :: chr '"' :: post))) =
      pre ++ (key ++ chr ':' :: (sp ++ ascii "[REDACTED]") ++ 0x20 :: x :: chr '"' :: post) := by
  have heq : wordByte (chr '=') = false := by decide
  have hcolon : wordByte (chr ':') = false := by decide
  have hgap : ∀ b ∈ sp, wordByte b = false := fun b hb => by rw [hsp b hb]; decide
  -- a rule that does not match at the key copies everything
  have hcopy : ∀ R : Rule UInt8, Headed R → Guarded R →
      (∀ z, R.firstMatch (key ++ chr ':' :: z) = none) →
      R.replaceAll (pre ++ (key ++ chr ':' ::
        (sp ++ chr '"' :: chr 'a' :: 0x20 :: x :: chr '"' :: post))) = pre ++ (key ++ chr ':' ::
          (sp ++ chr '"' :: chr 'a' :: 0x20 :: x :: chr '"' :: post)) := by
    intro R hR hG hnone
    have hquote := replaceAll_gap hR (g := [chr '"']) (z := chr 'a' :: 0x20 :: x :: chr '"' :: post)
      (by decide)
    have ha := replaceAll_letter hR (x := chr 'a') (s := 0x20)
      (z := x :: chr '"' :: post) (by decide) (by decide)
    rw [List.singleton_append, List.singleton_append] at hquote
    rw [replaceAll_before_key hR hG hpre hkey hcolon, replaceAll_key hR hkey hcolon (hnone _),
      replaceAll_gap hR hgap, hquote, ha, replaceAll_letter hR hx (by decide),
        replaceAll_plain hR hpost]
  have hhit : colonPattern.replaceAll
      (pre ++ (key ++ chr ':' :: (sp ++ chr '"' :: chr 'a' :: 0x20 :: x :: chr '"' :: post))) =
      pre ++ (key ++ chr ':' :: (sp ++ ascii "[REDACTED]") ++ 0x20 :: x :: chr '"' :: post) := by
    have hdrop : (chr '"' :: chr 'a' :: 0x20 :: x :: chr '"' :: post).dropWhile notBlank =
        0x20 :: x :: chr '"' :: post := rfl
    rw [replaceAll_before_key (headed_keyHead rfl hcolon) (guarded_keyHead rfl hcolon)
      hpre hkey hcolon,
      replaceAll_at_key rfl rfl (by decide) hcolon (by decide) hkey hsp (by decide)
        (by decide), hdrop,
      replaceAll_copies_letter (headed_keyHead rfl hcolon) hx hpost]
    rfl
  have hlast : assignmentPattern.replaceAll
      (pre ++ (key ++ chr ':' :: (sp ++ ascii "[REDACTED]") ++ 0x20 :: x :: chr '"' :: post)) =
      pre ++ (key ++ chr ':' :: (sp ++ ascii "[REDACTED]") ++ 0x20 :: x :: chr '"' :: post) := by
    have hR : Headed assignmentPattern := headed_keyHead rfl heq
    have hmark : ∀ z, assignmentPattern.replaceAll (ascii "[REDACTED]" ++ z) =
        ascii "[REDACTED]" ++ assignmentPattern.replaceAll z := by
      intro z
      have hopen := replaceAll_gap hR (g := [chr '['])
        (z := ascii "REDACTED" ++ chr ']' :: z) (by decide)
      have hword := replaceAll_word hR (k := ascii "REDACTED") (s := chr ']') (z := z) (by decide)
        (by decide) (by
          have hall : ∀ k ∈ (ascii "REDACTED").tails, k.map toLower ∉ firstWords := by decide
          exact fun k hk => hall k (List.mem_tails _ _ |>.mpr hk))
      rw [hword] at hopen
      exact hopen
    rw [List.append_assoc, List.cons_append, List.append_assoc,
      replaceAll_before_key hR (guarded_keyHead rfl heq) hpre hkey hcolon,
      replaceAll_key hR hkey hcolon (none_at_other_key rfl heq hkey hcolon (by decide) (by decide)),
      replaceAll_gap hR hgap, hmark, replaceAll_copies_letter hR hx hpost]
  simp only [redactLikelySecret]
  rw [hcopy _ (headed_keyHead rfl heq) (guarded_keyHead rfl heq)
      (fun z => none_at_other_key rfl heq hkey hcolon (by decide) (by decide)),
    hcopy _ headed_bearer guarded_bearer (fun z => bearer_none_at_key hkey hcolon), hhit, hlast]

/-- Redaction hides a quoted value from its surroundings exactly when the separator is `=`. -/
theorem redactLikelySecret_quoted_iff (pre key post sp : Bytes) (sep : UInt8)
    (hpre : PlainContext pre) (hkey : IsKeyWord key) (hsep : IsSeparator sep)
    (hsp : ∀ b ∈ sp, b = 0x20) (hpost : PlainContext post) :
    (∀ v₁ v₂, QuotedValue v₁ → QuotedValue v₂ →
      redactLikelySecret (pre ++ key ++ [sep] ++ sp ++ [chr '"'] ++ v₁ ++ [chr '"'] ++ post) =
        redactLikelySecret (pre ++ key ++ [sep] ++ sp ++ [chr '"'] ++ v₂ ++ [chr '"'] ++ post)) ↔
      sep = chr '=' := by
  have hassoc : ∀ v : Bytes, pre ++ key ++ [sep] ++ sp ++ [chr '"'] ++ v ++ [chr '"'] ++ post =
      pre ++ (key ++ sep :: (sp ++ chr '"' :: (v ++ chr '"' :: post))) := by simp
  simp only [hassoc]
  constructor
  · intro h
    rcases hsep with rfl | rfl
    · rfl
    · have hb := h [chr 'a', 0x20, chr 'b'] [chr 'a', 0x20, chr 'c'] (by decide) (by decide)
      simp only [List.cons_append, List.nil_append] at hb
      rw [redactLikelySecret_colon_quoted hpre.2 hkey hsp hpost.2 (by decide),
        redactLikelySecret_colon_quoted hpre.2 hkey hsp hpost.2 (by decide)] at hb
      have hne : chr 'b' ≠ chr 'c' := by decide
      simp [hne] at hb
  · rintro rfl v₁ v₂ hv₁ hv₂
    simp only [redactLikelySecret, quoted_hides hpre.2 hkey hsp hv₁,
      quoted_hides hpre.2 hkey hsp hv₂]

theorem redactLikelySecret_quoted_colon :
    (∀ v₁ v₂, QuotedValue v₁ → QuotedValue v₂ →
      redactLikelySecret (ascii "at " ++ ascii "Token" ++ [chr ':'] ++ [0x20] ++ [chr '"'] ++ v₁ ++
          [chr '"'] ++ ascii " ok") =
        redactLikelySecret (ascii "at " ++ ascii "Token" ++ [chr ':'] ++ [0x20] ++
          [chr '"'] ++ v₂ ++ [chr '"'] ++ ascii " ok")) ↔ chr ':' = chr '=' :=
  redactLikelySecret_quoted_iff _ _ _ _ _ (by decide +kernel) (by decide) (by decide) (by decide)
    (by decide +kernel)

/-- `token: "abc def"` and `token: "abc ghi"` are redacted to different texts. -/
theorem redactLikelySecret_colon_leaks :
    ¬ ∀ pre key post sp v₁ v₂ sep, PlainContext pre → IsKeyWord key → IsSeparator sep →
      (∀ b ∈ sp, b = 0x20) → PlainContext post → QuotedValue v₁ → QuotedValue v₂ →
      redactLikelySecret (pre ++ key ++ [sep] ++ sp ++ [chr '"'] ++ v₁ ++ [chr '"'] ++ post) =
        redactLikelySecret (pre ++ key ++ [sep] ++ sp ++ [chr '"'] ++ v₂ ++ [chr '"'] ++ post) := by
  intro h
  have ht := h [] (ascii "token") [] [0x20] (ascii "abc def") (ascii "abc ghi")
    (chr ':') (by decide) (by decide) (by decide) (by decide) (by decide) (by decide) (by decide)
  revert ht
  decide +kernel

end Kasli.Core
