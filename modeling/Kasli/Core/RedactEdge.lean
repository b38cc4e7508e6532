import Kasli.Core.RedactJson

/-! Redaction of a text that goes on after a quote. No head holds a quote, so a match that begins
before the quote goes on behind it with its tail alone. Either the text before the quote is
redacted as if nothing came after it, and so is the text after it; or a value rule swallows the
quote, and of the text after it only what comes after the next blank matters. -/

namespace Kasli.Core

open Regex Regex.Pattern Json

/-! ### One rule -/

def EndsQuote (s : Bytes) : Prop := s.getLast? = some (chr '"')

instance (s : Bytes) : Decidable (EndsQuote s) := inferInstanceAs (Decidable (_ = _))

theorem endsQuote_iff {s : Bytes} : EndsQuote s ↔ ∃ t, s = t ++ [chr '"'] := by
  rw [EndsQuote, List.getLast?_eq_some_iff]

theorem endsQuote_append {s : Bytes} (t : Bytes) (h : EndsQuote s) : EndsQuote (t ++ s) := by
  obtain ⟨u, rfl⟩ := endsQuote_iff.mp h
  exact endsQuote_iff.mpr ⟨t ++ u, by rw [List.append_assoc]⟩

theorem endsQuote_of_suffix {s t : Bytes} (h : EndsQuote t) (hs : s <:+ t) (hne : s ≠ []) :
    EndsQuote s := by
  obtain ⟨u, rfl⟩ := hs
  rwa [EndsQuote, List.getLast?_append, Option.or_of_isSome (by simpa using hne)] at h

theorem EndsQuote.ne_nil {s : Bytes} (h : EndsQuote s) : s ≠ [] := by
  rintro rfl
  cases h

/-- The last byte comes from the text or from a replacement. -/
theorem getLast?_replaceAll {R : Rule UInt8} (hrep : R.replacement ≠ []) {s : Bytes} (hs : s ≠ []) :
    (R.replaceAll s).getLast? = s.getLast? ∨ (R.replaceAll s).getLast? =
      R.replacement.getLast? := by
  have hlast : ∀ (t : Bytes) {u : Bytes}, u ≠ [] → (t ++ u).getLast? = u.getLast? :=
    fun t u hu => by
    rw [List.getLast?_append, Option.or_of_isSome (by simpa using hu)]
  have hne : ∀ {u v : Bytes}, v ≠ [] → u.getLast? = v.getLast? → u ≠ [] := by
    rintro u v hv h rfl
    exact hv (List.getLast?_eq_none_iff.mp h.symm)
  induction s using R.scan_induction with
  | nil => exact absurd rfl hs
  | skip a s hm ih =>
    rw [R.replaceAll_skip hm]
    rcases eq_or_ne s [] with rfl | hs'
    · exact .inl rfl
    · have hout : R.replaceAll s ≠ [] := (ih hs').elim (hne hs') (hne hrep)
      have htwo : ∀ {u : Bytes}, u ≠ [] → (a :: u).getLast? = u.getLast? := fun hu => hlast [a] hu
      rw [htwo hout, htwo hs']
      exact ih hs'
  | hit s kept rest hm ih =>
    rw [R.replaceAll_hit hm]
    rcases eq_or_ne rest [] with rfl | hrest
    · right
      rw [R.replaceAll_nil, List.append_nil]
      exact hlast kept hrep
    · obtain ⟨c, -, rfl⟩ := R.firstMatch_suffix hm
      have hout : R.replaceAll rest ≠ [] := (ih hrest).elim (hne hrest) (hne hrep)
      rw [hlast _ hout, hlast c hrest]
      exact ih hrest

/-- A context whose matches do not look at what follows it is redacted on its own. -/
theorem replaceAll_append_of_local {R : Rule UInt8} {X y : Bytes}
    (h : ∀ s, s <:+ X → s ≠ [] → R.firstMatch (s ++ y) = (R.firstMatch s).map fun m =>
      (m.1, m.2 ++ y)) :
    R.replaceAll (X ++ y) = R.replaceAll X ++ R.replaceAll y := by
  induction X using R.scan_induction with
  | nil => rfl
  | skip a s hm ih =>
    have hnone := h (a :: s) List.suffix_rfl (by simp)
    rw [hm] at hnone
    rw [R.replaceAll_skip hm]
    refine (R.replaceAll_skip (s := s ++ y) hnone).trans ?_
    rw [ih fun s' hs => h s' (hs.trans (List.suffix_cons a s)), List.cons_append]
  | hit s kept rest hm ih =>
    obtain ⟨c, hc, rfl⟩ := R.firstMatch_suffix hm
    have hsome := h (c ++ rest) List.suffix_rfl (by simp [hc])
    rw [hm] at hsome
    rw [R.replaceAll_hit hm, R.replaceAll_hit hsome, ih fun s' hs =>
      h s' (hs.trans (List.suffix_append c rest)), List.append_assoc (kept ++ R.replacement)]

section

variable {R : Rule UInt8} {X : Bytes} (hq : ∀ c ∈ R.head.Lang, chr '"' ∉ c)

include hq in
theorem splits_head_append (hX : EndsQuote X) (y : Bytes) :
    R.head.splits (X ++ y) = (R.head.splits X).map fun m => (m.1, m.2 ++ y) := by
  refine R.head.splits_append_local X y fun c hc hpre => ?_
  by_contra hlt
  have hX' : X <+: c := List.prefix_of_prefix_length_le (List.prefix_append X y) hpre (by omega)
  exact hq c hc (hX'.subset (List.mem_of_getLast? hX))

include hq in
/-- What a head leaves of the text ends with the quote. -/
theorem endsQuote_of_split (hX : EndsQuote X) {m : Bytes × Bytes} (hm : m ∈ R.head.splits X) :
    EndsQuote m.2 := by
  obtain ⟨hs, hc⟩ := (R.head.mem_splits X m).mp hm
  rcases eq_or_ne m.2 [] with he | hne
  · rw [he, List.append_nil] at hs
    exact absurd (List.mem_of_getLast? (hs ▸ hX)) (hq _ hc)
  · exact endsQuote_of_suffix hX (hs ▸ List.suffix_append m.1 m.2) hne

include hq in
/-- The match in `X ++ y` is the one in `X`, when the tails leave what they leave in `X`,
changed by `g`. -/
theorem firstMatch_append (hX : EndsQuote X) (y : Bytes) {g : Bytes → Bytes}
    (hg : ∀ m ∈ R.head.splits X, R.tailRest (m.2 ++ y) = (R.tailRest m.2).map g) :
    R.firstMatch (X ++ y) = (R.firstMatch X).map fun m => (m.1, g m.2) := by
  rw [Rule.firstMatch, Rule.firstMatch, splits_head_append hq hX y]
  revert hg
  generalize R.head.splits X = l
  intro hg
  induction l with
  | nil => rfl
  | cons m l ih =>
    rw [List.map_cons, List.findSome?_cons, List.findSome?_cons, hg m List.mem_cons_self,
      ih fun n hn => hg n (List.mem_cons_of_mem m hn)]
    cases R.tailRest m.2 with
    | none => rfl
    | some r => rfl

/-! ### A rule for a run -/

section

variable {p : UInt8 → Bool} (htail : R.tail = plus p)

include hq htail in
/-- What a match in `X` leaves of the longer text. -/
theorem firstMatch_append_plus (hX : EndsQuote X) (y : Bytes) : R.firstMatch (X ++ y) =
    (R.firstMatch X).map fun m => (m.1, if m.2 = [] then y.dropWhile p else m.2 ++ y) := by
  refine firstMatch_append hq hX y (g := fun r => if r = [] then y.dropWhile p else r ++
    y) fun m hm => ?_
  obtain ⟨b, s, hs⟩ := List.exists_cons_of_ne_nil (endsQuote_of_split hq hX hm).ne_nil
  rw [R.tailRest_plus htail, R.tailRest_plus htail, hs]
  by_cases hb : p b
  · rw [if_pos (by simpa using hb), if_pos (by simpa using hb), Option.map_some,
      List.dropWhile_append]
    simp only [List.isEmpty_iff]
  · simp [hb]

include hq htail in
/-- A run that begins before the quote and reaches it swallows the quote and what follows it;
else the text before the quote and the text after it are redacted on their own. -/
theorem replaceAll_plus (hX : EndsQuote X) :
    (EndsQuote (R.replaceAll X) ∧ ∀ y, R.replaceAll (X ++ y) = R.replaceAll X ++ R.replaceAll y) ∨
    p (chr '"') ∧ ∃ Y, R.replaceAll X = Y ++ R.replacement ∧
      ∀ y, R.replaceAll (X ++ y) = Y ++ R.replacement ++ R.replaceAll (y.dropWhile p) := by
  induction X using R.scan_induction with
  | nil => cases hX
  | skip a s hm ih =>
    have hnone : ∀ y, R.firstMatch (a :: (s ++ y)) = none := fun y => by
      have happend := firstMatch_append_plus hq htail hX y
      rw [hm] at happend
      exact happend
    rw [R.replaceAll_skip hm]
    rcases eq_or_ne s [] with rfl | hne
    · exact .inl ⟨hX, fun y => R.replaceAll_skip (hnone y)⟩
    rcases ih (endsQuote_of_suffix hX (List.suffix_cons a s) hne)
      with ⟨hends, hout⟩ | ⟨hp, Y, hout, hrun⟩
    · refine .inl ⟨endsQuote_append [a] hends, fun y => ?_⟩
      rw [List.cons_append, R.replaceAll_skip (hnone y), hout y, List.cons_append]
    · refine .inr ⟨hp, a :: Y, by rw [hout, List.cons_append], fun y => ?_⟩
      rw [List.cons_append, R.replaceAll_skip (hnone y), hrun y]
      rfl
  | hit s kept rest hm ih =>
    have hsome := firstMatch_append_plus hq htail hX
    rw [hm] at hsome
    rw [R.replaceAll_hit hm]
    rcases eq_or_ne rest [] with rfl | hne
    · right
      refine ⟨?_, kept, by rw [R.replaceAll_nil, List.append_nil], fun y => R.replaceAll_hit (hsome y)⟩
      obtain ⟨hk, r, hs, hr⟩ := R.firstMatch_eq_some hm
      obtain ⟨t, ht, hrest⟩ := R.tailRest_eq_some hr
      rw [htail] at ht
      rw [List.append_nil] at hrest
      subst hrest hs
      have hlast := endsQuote_of_suffix hX (List.suffix_append kept t) (mem_plus.mp ht).1
      exact (mem_plus.mp ht).2 _ (List.mem_of_getLast? hlast)
    · obtain ⟨c, -, rfl⟩ := R.firstMatch_suffix hm
      rcases ih (endsQuote_of_suffix hX (List.suffix_append c rest) hne)
        with ⟨hends, hout⟩ | ⟨hp, Y, hout, hrun⟩
      · refine .inl ⟨endsQuote_append _ hends, fun y => ?_⟩
        rw [R.replaceAll_hit (hsome y), if_neg hne, hout y,
          List.append_assoc (kept ++ R.replacement)]
      · refine .inr ⟨hp, kept ++ R.replacement ++
          Y, by rw [hout, List.append_assoc _ Y], fun y => ?_⟩
        rw [R.replaceAll_hit (hsome y), if_neg hne, hrun y]
        simp only [List.append_assoc]

end

/-! ### A rule for a quoted value -/

include hq in
/-- A quoted value does not begin with the last quote when no head ends right before it. -/
theorem replaceAll_delimited (htail : R.tail = delimited (· == chr '"')) (hX : EndsQuote X)
    (hno : ∀ c ∈ R.head.Lang, ¬ c ++ [chr '"'] <:+ X) (y : Bytes) :
    R.replaceAll (X ++ y) = R.replaceAll X ++ R.replaceAll y := by
  refine replaceAll_append_of_local fun s hs hne => ?_
  have hends := endsQuote_of_suffix hX hs hne
  refine firstMatch_append hq hends y (g := fun r => r ++ y) fun m hm => ?_
  obtain ⟨hcut, hc⟩ := (R.head.mem_splits s m).mp hm
  have hquote := endsQuote_of_split hq hends hm
  obtain ⟨b, t, ht⟩ := List.exists_cons_of_ne_nil hquote.ne_nil
  rw [R.tailRest_delimited htail, R.tailRest_delimited htail, ht]
  by_cases hb : b = chr '"'
  · subst hb
    have htne : t ≠ [] := by
      rintro rfl
      rw [ht] at hcut
      exact hno m.1 hc (hcut ▸ hs)
    have htail : EndsQuote t := endsQuote_of_suffix (ht ▸ hquote) (List.suffix_cons _ t) htne
    obtain ⟨u, rfl⟩ := endsQuote_iff.mp htail
    have hdrop : (u ++ [chr '"']).dropWhile (fun a => !(a == chr '"')) ≠ [] := by
      rw [Ne, List.dropWhile_eq_nil_iff]
      intro hall
      simpa using hall (chr '"') (by simp)
    obtain ⟨a, r, hr⟩ := List.exists_cons_of_ne_nil hdrop
    rw [if_pos (by simp), if_pos (by simp), List.cons_append, List.tail_cons, List.tail_cons,
      Rule.dropWhile_append_of_ne_nil hdrop, hr]
    rfl
  · simp [hb]

end

/-! ### All rules -/

/-- A text without blanks and quotes. -/
def PlainText (e : Bytes) : Prop := ∀ b ∈ e, isSpace b = false ∧ b ≠ chr '"'

instance (e : Bytes) : Decidable (PlainText e) := inferInstanceAs (Decidable (∀ b ∈ e, _))

/-- What follows the closing quote of a value: another quoted text after a comma, or no quote. -/
def AfterValue (Q : Bytes) : Prop := chr '"' ∉ Q ∨ ∃ Q', Q = chr ',' :: chr '"' :: Q'

theorem quote_notMem_rules : ∀ R ∈ rules, ∀ c ∈ R.head.Lang, chr '"' ∉ c :=
  fun R hR c hc => ((actsInText_rules R hR).head c hc).1

theorem quoted_mem : quotedAssignmentPattern ∈ rules := by simp [rules]

/-- No head of the first rule ends with a colon. -/
theorem colon_not_suffix {c t : Bytes} (hc : c ∈ quotedAssignmentPattern.head.Lang) :
    ¬ c ++ [chr '"'] <:+ t ++ ascii ":\"" := by
  obtain ⟨w, g, g', -, -, hg', rfl⟩ := mem_keyHead.mp hc
  rintro ⟨u, hu⟩
  have hcut : u ++ (w ++ (g ++ chr '=' :: g')) = t ++ [chr ':'] := by
    refine (List.append_left_inj [chr '"']).mp ?_
    rw [List.append_assoc u, hu, List.append_assoc]
    rfl
  have hlast : (chr '=' :: g').getLast? = some (chr ':') := by
    rw [← List.getLast?_append_cons (u ++ (w ++ g)), List.append_assoc, List.append_assoc, hcut,
      List.getLast?_concat]
  rcases List.mem_cons.mp (List.mem_of_getLast? hlast) with h | h
  · exact absurd h (by decide)
  · exact absurd (hg' _ h) (by decide)

/-- A capture of the first rule ends where the first quote of the text begins. -/
theorem quoted_capture {e z c r : Bytes} (he : chr '"' ∉ e)
    (hc : c ∈ quotedAssignmentPattern.head.Lang)
    (hcut : c ++ r = e ++ chr '"' :: z) (hr : quotedAssignmentPattern.tailRest r ≠ none) :
    c = e := by
  obtain ⟨rest, hrest⟩ := Option.ne_none_iff_exists'.mp hr
  obtain ⟨t, ht, rfl⟩ := Rule.tailRest_eq_some _ hrest
  obtain ⟨_, ⟨a, ha, rfl⟩, v, -, rfl⟩ := mem_seq.mp ht
  obtain rfl : a = chr '"' := by simpa using ha
  have hunquoted : ∀ {s : Bytes} (y : Bytes), chr '"' ∉ s →
      (s ++ chr '"' :: y).takeWhile (fun b => !(b == chr '"')) = s := fun {s} y hs => by
    have hall : ∀ b ∈ s, !(b == chr '"') := fun b hb => by
      simp only [Bool.not_eq_true', beq_eq_false_iff_ne]
      exact fun h => hs (h ▸ hb)
    rw [List.takeWhile_append_of_pos hall]
    simp
  have htake := congrArg (List.takeWhile fun b => !(b == chr '"')) hcut
  rwa [List.append_assoc, List.singleton_append, hunquoted _ he,
    hunquoted _ (quote_notMem_rules _ quoted_mem c hc)] at htake

/-- A text with one quote has no quoted value. -/
theorem quoted_one_quote {e Q : Bytes} (he : chr '"' ∉ e) (hQ : chr '"' ∉ Q) :
    quotedAssignmentPattern.replaceAll (e ++ chr '"' :: Q) = e ++ chr '"' :: Q := by
  have hcount : (e ++ chr '"' :: Q).count (chr '"') = 1 := by
    simp [List.count_append, List.count_eq_zero_of_not_mem he, List.count_eq_zero_of_not_mem hQ]
  have hnone := quotedAssignmentPattern.replaceAll_append_of_none (s := e ++ chr '"' :: Q)
      (t := []) fun s hs _ => by
    rw [List.append_nil]
    cases hm : quotedAssignmentPattern.firstMatch s with
    | none => rfl
    | some m =>
      obtain ⟨-, r, rfl, hr⟩ := Rule.firstMatch_eq_some _ hm
      obtain ⟨t, ht, rfl⟩ := Rule.tailRest_eq_some _ hr
      obtain ⟨_, ⟨a, ha, rfl⟩, _, ⟨v, -, _, ⟨b, hb, rfl⟩, rfl⟩, rfl⟩ := mem_seq.mp ht
      obtain rfl : a = chr '"' := by simpa using ha
      obtain rfl : b = chr '"' := by simpa using hb
      have hle := hs.sublist.count_le (chr '"')
      rw [hcount] at hle
      simp [List.count_append] at hle
      omega
  simpa using hnone

/-- The first rule takes a value with the quote after it, or leaves both; the rest of the text
it redacts is the same. -/
theorem quoted_value {Q : Bytes} (hQ : AfterValue Q) : ∃ U, ∀ e, PlainText e → ∃ f, EndsQuote f ∧
    (∀ b ∈ f, isSpace b = false) ∧
      quotedAssignmentPattern.replaceAll (e ++ chr '"' :: Q) = f ++ U := by
  have hR : Headed quotedAssignmentPattern := headed_rules _ quoted_mem
  have hskip : ∀ {b : UInt8} (_ : wordByte b = false) (t : Bytes),
      quotedAssignmentPattern.replaceAll (b :: t) = b :: quotedAssignmentPattern.replaceAll t :=
        fun hb t =>
    (copied_byte hR hb t).replaceAll
  have hplain : ∀ {e : Bytes}, PlainText e → chr '"' ∉ e := fun he h => (he _ h).2 rfl
  rcases hQ with hQ | ⟨Q', rfl⟩
  · refine ⟨Q, fun e he => ⟨e ++ [chr '"'], endsQuote_iff.mpr ⟨e, rfl⟩, ?_, ?_⟩⟩
    · exact List.forall_mem_append.mpr ⟨fun b hb => (he b hb).1, by decide⟩
    · rw [quoted_one_quote (hplain he) hQ, List.append_assoc]
      rfl
  · refine ⟨quotedAssignmentPattern.replaceAll Q', fun e he => ?_⟩
    induction e with
    | nil =>
      refine ⟨ascii "\",\"", rfl, by decide, ?_⟩
      rw [List.nil_append, hskip (by decide), hskip (by decide), hskip (by decide)]
      rfl
    | cons b e ih =>
      by_cases hc : b :: e ∈ quotedAssignmentPattern.head.Lang
      · have hm : quotedAssignmentPattern.firstMatch (b :: e ++ chr '"' :: chr ',' ::
          chr '"' :: Q') =
            some (b :: e, Q') := by
          refine Rule.firstMatch_eq_of_unique _ hc rfl ?_ fun c hc r hcut hr =>
            quoted_capture (hplain he) hc hcut hr
          rw [Rule.tailRest_delimited _ rfl]
          rfl
        rw [Rule.replaceAll_hit _ hm]
        exact ⟨b :: e ++ ascii "\"[REDACTED]\"", endsQuote_append _ rfl,
          List.forall_mem_append.mpr ⟨fun b hb => (he b hb).1, by decide⟩, rfl⟩
      · have hm : quotedAssignmentPattern.firstMatch (b :: e ++ chr '"' :: chr ',' :: chr '"' ::
            Q') = none := by
          cases hm : quotedAssignmentPattern.firstMatch (b :: e ++ chr '"' :: chr ',' ::
              chr '"' :: Q') with
          | none => rfl
          | some m =>
            obtain ⟨hk, r, hcut, hr⟩ := Rule.firstMatch_eq_some _ hm
            exact absurd (quoted_capture (hplain he) hk hcut (by simp [hr]) ▸ hk) hc
        obtain ⟨f, hf, hspaces, hout⟩ := ih fun a ha => he a (List.mem_cons_of_mem b ha)
        refine ⟨b :: f, endsQuote_append [b] hf,
          List.forall_mem_cons.mpr ⟨(he b List.mem_cons_self).1, hspaces⟩, ?_⟩
        refine (Rule.replaceAll_skip _ (s := e ++ chr '"' :: chr ',' :: chr '"' :: Q') hm).trans ?_
        rw [hout, List.cons_append]

/-- A text without blanks that ends with a quote is nothing to the rule for bearer credentials. -/
theorem bearer_plain {f : Bytes} (hf : EndsQuote f)
    (hspaces : ∀ b ∈ f, isSpace b = false) (U : Bytes) :
    bearerPattern.replaceAll (f ++ U) = f ++ bearerPattern.replaceAll U := by
  refine bearerPattern.replaceAll_append_of_none fun s hs hne =>
    bearerPattern.firstMatch_eq_none fun c hc hpre => ?_
  obtain ⟨w, g, g', w', g'', -, -, -, -, hne', hg'', rfl⟩ := mem_bearerHead.mp hc
  obtain ⟨x, hx⟩ := List.exists_mem_of_ne_nil g'' hne'
  have hxs : x ∉ s := fun h => by
    have hspace := hspaces x (hs.subset h)
    rw [hg'' x hx] at hspace
    cases hspace
  rcases List.prefix_or_prefix_of_prefix hpre (List.prefix_append s U) with h | h
  · exact hxs (h.subset (by simp [hx]))
  · exact (head_bearer hc).1 (h.subset (List.mem_of_getLast? (endsQuote_of_suffix hf hs hne)))

/-- A bracket at the end stays or comes from a value rule. -/
theorem bracket_replaceAll {R : Rule UInt8} (hrep : R.replacement = ascii "[REDACTED]") {s : Bytes}
    (h : s.getLast? = some (chr ']')) : (R.replaceAll s).getLast? = some (chr ']') := by
  have hs : s ≠ [] := by
    rintro rfl
    cases h
  rcases getLast?_replaceAll (R := R) (by rw [hrep]; decide) hs with he | he
  · rw [he, h]
  · rw [he, hrep]
    rfl

/-- Redaction before and after the quote that opens a value: each on its own, or the value and
its closing quote are swallowed, and then the value does not matter. -/
theorem redact_after_quote {t Q : Bytes} (hQ : AfterValue Q) :
    (EndsQuote (redactLikelySecret (t ++ ascii ":\"")) ∧
      ∀ y, redactLikelySecret (t ++ ascii ":\"" ++ y) =
      redactLikelySecret (t ++ ascii ":\"") ++ redactLikelySecret y) ∨
    ¬ EndsQuote (redactLikelySecret (t ++ ascii ":\"")) ∧
      ∃ out, ∀ e, PlainText e →
        redactLikelySecret (t ++ ascii ":\"" ++ (e ++ chr '"' :: Q)) = out := by
  have hX : EndsQuote (t ++ ascii ":\"") := endsQuote_append t rfl
  have hne : t ++ ascii ":\"" ≠ [] := hX.ne_nil
  obtain ⟨U, hU⟩ := quoted_value hQ
  have hlocal := replaceAll_delimited (quote_notMem_rules _ quoted_mem) rfl hX fun c hc =>
    colon_not_suffix hc
  have hends : EndsQuote (quotedAssignmentPattern.replaceAll (t ++ ascii ":\"")) := by
    rcases getLast?_replaceAll (R := quotedAssignmentPattern) (by decide) hne with he | he
    · exact he.trans hX
    · exact he.trans rfl
  have hquote := quote_notMem_rules
  simp only [rules, List.forall_mem_cons] at hquote
  obtain ⟨-, hbearer, hcolon, hassign, -⟩ := hquote
  have hbracket : ∀ Y : Bytes, (Y ++ ascii "[REDACTED]").getLast? = some (chr ']') := fun Y => by
    rw [List.getLast?_append]
    rfl
  have hnot : ∀ {s : Bytes}, s.getLast? = some (chr ']') → ¬ EndsQuote s := fun hs h => by
    rw [EndsQuote, hs] at h
    exact absurd h (by decide)
  simp only [redactLikelySecret]
  rcases replaceAll_plus hbearer rfl hends with ⟨hends, hout⟩ | ⟨-, Y, hY, hrun⟩
  · rcases replaceAll_plus hcolon rfl hends with ⟨hends, hout'⟩ | ⟨-, Y, hY, hrun⟩
    · rcases replaceAll_plus hassign rfl hends with ⟨hends, hout''⟩ | ⟨hp, -⟩
      · exact .inl ⟨hends, fun y => by rw [hlocal, hout, hout', hout'']⟩
      · exact absurd hp (by decide)
    · refine .inr ⟨hnot (bracket_replaceAll rfl (hY ▸ hbracket Y)), assignmentPattern.replaceAll
        (Y ++ colonPattern.replacement ++
          colonPattern.replaceAll ((bearerPattern.replaceAll U).dropWhile notBlank)), fun e he =>
          ?_⟩
      obtain ⟨f, hf, hspaces, hvalue⟩ := hU e he
      have hblank : ∀ b ∈ f, notBlank b := fun b hb => notBlank_of_not_space (hspaces b hb)
      rw [hlocal, hvalue, hout, bearer_plain hf hspaces, hrun, List.dropWhile_append_of_pos hblank]
  · refine .inr ⟨hnot (bracket_replaceAll rfl (bracket_replaceAll rfl (hY ▸ hbracket Y))),
      assignmentPattern.replaceAll (colonPattern.replaceAll (Y ++ bearerPattern.replacement ++
        bearerPattern.replaceAll (U.dropWhile notBlank))), fun e he => ?_⟩
    obtain ⟨f, hf, hspaces, hvalue⟩ := hU e he
    have hblank : ∀ b ∈ f, notBlank b := fun b hb => notBlank_of_not_space (hspaces b hb)
    rw [hlocal, hvalue, hrun, List.dropWhile_append_of_pos hblank]

/-! ### Short texts -/

/-- The rule finds nothing in the text. -/
def Unmatched (R : Rule UInt8) (s : Bytes) : Prop := ∀ t, t <:+ s → t ≠ [] → R.firstMatch t = none

theorem Unmatched.replaceAll {R : Rule UInt8} {s : Bytes} (h : Unmatched R s) :
    R.replaceAll s = s := by
  have hnone := R.replaceAll_append_of_none (s := s) (t := []) fun t ht hne => by
    rw [List.append_nil]
    exact h t ht hne
  simpa using hnone

theorem IsKeyWord.length_le {w : Bytes} (h : IsKeyWord w) : 5 ≤ w.length := by
  have hall : ∀ k ∈ keyWords, 5 ≤ k.length := by decide
  simpa using hall _ h

/-- A match leaves at least sixteen bytes. -/
theorem length_match : ∀ R ∈ rules, ∀ c ∈ R.head.Lang, 16 ≤ c.length + R.replacement.length := by
  have hkey : ∀ {sep : UInt8} {c : Bytes}, c ∈ (keyHead sep).Lang → 6 ≤ c.length := by
    intro sep c hc
    obtain ⟨w, g, g', hw, -, -, rfl⟩ := mem_keyHead.mp hc
    have hlen := hw.length_le
    simp only [List.length_append, List.length_cons]
    omega
  have hbearer : ∀ {c : Bytes}, c ∈ bearerHead.Lang → 6 ≤ c.length := by
    intro c hc
    obtain ⟨w, g, g', w', g'', hw, -, -, -, -, -, rfl⟩ := mem_bearerHead.mp hc
    have hlen : w.length = (ascii "authorization").length := by
      rw [← hw, List.length_map]
    have hword : (ascii "authorization").length = 13 := by decide
    simp only [List.length_append, List.length_cons]
    omega
  have hreplacement : ∀ R ∈ rules, 10 ≤ R.replacement.length := by decide
  have hhead : ∀ R ∈ rules, ∀ c ∈ R.head.Lang, 6 ≤ c.length := by
    simp only [rules, List.forall_mem_cons]
    exact ⟨fun c hc => hkey hc, fun c hc => hbearer hc, fun c hc => hkey hc, fun c hc =>
      hkey hc, by simp⟩
  intro R hR c hc
  have h₁ := hhead R hR c hc
  have h₂ := hreplacement R hR
  omega

/-- A rule leaves a text alone or makes it sixteen bytes long at least. -/
theorem unmatched_or_long {R : Rule UInt8} (hR : R ∈ rules) (s : Bytes) :
    Unmatched R s ∨ 16 ≤ (R.replaceAll s).length := by
  induction s using R.scan_induction with
  | nil => exact .inl fun t ht hne => absurd (List.suffix_nil.mp ht) hne
  | skip a s hm ih =>
    rw [R.replaceAll_skip hm, List.length_cons]
    rcases ih with h | h
    · refine .inl fun t ht hne => ?_
      rcases List.suffix_cons_iff.mp ht with rfl | ht
      · exact hm
      · exact h t ht hne
    · exact .inr (by omega)
  | hit s kept rest hm ih =>
    have hlen := length_match R hR kept (R.firstMatch_eq_some hm).1
    rw [R.replaceAll_hit hm, List.length_append, List.length_append]
    exact .inr (by omega)

theorem foldl_unmatched {Rs : List (Rule UInt8)} {s : Bytes} (h : ∀ R ∈ Rs, Unmatched R s) :
    Rs.foldl (fun s R => R.replaceAll s) s = s := by
  induction Rs with
  | nil => rfl
  | cons R Rs ih =>
    rw [List.forall_mem_cons] at h
    rw [List.foldl_cons, h.1.replaceAll, ih h.2]

theorem unmatched_or_long_foldl {Rs : List (Rule UInt8)} (hRs : ∀ R ∈ Rs, R ∈ rules) (s : Bytes) :
    (∀ R ∈ Rs, Unmatched R s) ∨ 16 ≤ (Rs.foldl (fun s R => R.replaceAll s) s).length := by
  induction Rs generalizing s with
  | nil => exact .inl (by simp)
  | cons R Rs ih =>
    rw [List.forall_mem_cons] at hRs
    rcases unmatched_or_long hRs.1 s with h | h
    · rw [List.forall_mem_cons, List.foldl_cons, h.replaceAll]
      exact (ih hRs.2 s).imp (fun hrest => ⟨h, hrest⟩) id
    · right
      rw [List.foldl_cons]
      rcases ih hRs.2 (R.replaceAll s) with hrest | hrest
      · rwa [foldl_unmatched hrest]
      · exact hrest

/-- Redaction leaves a text alone or makes it sixteen bytes long at least. -/
theorem unmatched_or_long_redact (s : Bytes) :
    (∀ R ∈ rules, Unmatched R s) ∨ 16 ≤ (redactLikelySecret s).length :=
  unmatched_or_long_foldl (fun _ h => h) s

/-- A longer value does not make the redacted text shorter, unless the text is long. -/
theorem length_redact_value {b : UInt8} (hb : wordByte b = false) {e : Bytes}
    (he : e ≠ []) (Q : Bytes) : 16 ≤ (redactLikelySecret (e ++ Q)).length ∨
      (redactLikelySecret (b :: Q)).length ≤ (redactLikelySecret (e ++ Q)).length := by
  rcases unmatched_or_long_redact (e ++ Q) with h | h
  · right
    have hQ : ∀ R ∈ rules, Unmatched R (b :: Q) := by
      intro R hR t ht hne
      rcases List.suffix_cons_iff.mp ht with rfl | ht
      · exact (headed_rules R hR).none_of_word (k := []) (by simp) hb (by decide)
      · exact h R hR t (ht.trans (List.suffix_append e Q)) hne
    have hpos := List.length_pos_of_ne_nil he
    rw [redactLikelySecret_eq_foldl (e ++ Q), foldl_unmatched h, redactLikelySecret_eq_foldl,
      foldl_unmatched hQ, List.length_append, List.length_cons]
    omega
  · exact .inl h

end Kasli.Core
