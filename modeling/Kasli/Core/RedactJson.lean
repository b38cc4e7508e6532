import Kasli.Core.RedactSecrets
import Kasli.Core.RedactUtf8
import Kasli.Json.Skeleton
import Kasli.Json.StringText

/-! Redaction of JSON texts. The rules know nothing of JSON. What they make of a JSON text is one
again when every span they replace is string text and no head is found in a key: then only the
contents of strings change. -/

namespace Kasli.Core

open Regex Regex.Pattern Json

/-! ### The rules and strings -/

def rules : List (Rule UInt8) :=
  [quotedAssignmentPattern, bearerPattern, colonPattern, assignmentPattern]

theorem redactLikelySecret_eq_foldl (s : Bytes) :
    redactLikelySecret s = rules.foldl (fun s R => R.replaceAll s) s := rfl

/-- The bytes of the pieces of string text that are longer than one byte. -/
def pieceBytes : Bytes := ascii "\\\"bfnrtu0123456789abcdef"

theorem ends_of_notMem {y : UInt8} (h : y ∉ pieceBytes) : EndsPiece y := by
  intro b hb
  have hpiece := forall_byte (p := fun b => escapeByte b = [b] ∨ ∀ y ∈ escapeByte b, y ∈ pieceBytes)
    (by decide +kernel) b
  rcases hpiece with hone | hall
  · rw [hone] at hb ⊢
    rw [List.mem_singleton.mp hb]
  · exact absurd (hall y hb) h

theorem space_notMem {y : UInt8} (h : isSpace y) : y ∉ pieceBytes ∧ y ≠ chr '"' := by
  revert h
  exact forall_byte (p := fun y => isSpace y → y ∉ pieceBytes ∧ y ≠ chr '"') (by decide +kernel) y

/-- A text that ends with bytes that no long piece has ends where a piece is over. -/
theorem exists_ends {c e : Bytes} (hne : e ≠ []) (he : ∀ y ∈ e, y ∉ pieceBytes) :
    ∃ d y, c ++ e = d ++ [y] ∧ EndsPiece y :=
  ⟨c ++ e.dropLast, e.getLast hne, by rw [List.append_assoc, List.dropLast_append_getLast hne],
    ends_of_notMem (he _ (List.getLast_mem hne))⟩

theorem head_keyHead {sep : UInt8} (hsep : sep ∉ pieceBytes ∧ sep ≠ chr '"') {c : Bytes}
    (hc : c ∈ (keyHead sep).Lang) : chr '"' ∉ c ∧ ∃ d y, c = d ++ [y] ∧ EndsPiece y := by
  obtain ⟨w, g, g', hw, hg, hg', rfl⟩ := mem_keyHead.mp hc
  constructor
  · simp only [List.mem_append, List.mem_cons, not_or]
    exact ⟨fun h => (plain_of_wordByte (firstWord_bytes hw.firstWord _ h)).2.2.2 rfl,
      fun h => (space_notMem (hg _ h)).2 rfl, hsep.2.symm, fun h => (space_notMem (hg' _ h)).2 rfl⟩
  · rw [← List.append_assoc]
    refine exists_ends (List.cons_ne_nil _ _) fun y hy => ?_
    rcases List.mem_cons.mp hy with rfl | hy
    · exact hsep.1
    · exact (space_notMem (hg' y hy)).1

theorem head_bearer {c : Bytes} (hc : c ∈ bearerHead.Lang) : chr '"' ∉ c ∧ ∃ d y, c = d ++ [y] ∧
    EndsPiece y := by
  obtain ⟨w, g, g', w', g'', hw, hg, hg', hw', hne, hg'', rfl⟩ := mem_bearerHead.mp hc
  have hfirst : w.map toLower ∈ firstWords := by
    rw [hw]
    decide
  constructor
  · simp only [List.mem_append, List.mem_cons, not_or]
    exact ⟨fun h => (plain_of_wordByte (firstWord_bytes hfirst _ h)).2.2.2 rfl,
      fun h => (space_notMem (hg _ h)).2 rfl, by decide, fun h => (space_notMem (hg' _ h)).2 rfl,
      fun h => (plain_of_wordByte (bearer_word hw' _ h)).2.2.2 rfl, fun h =>
        (space_notMem (hg'' _ h)).2 rfl⟩
  · have hends := exists_ends (c := w ++ (g ++ chr ':' :: (g' ++ w'))) hne fun y hy =>
      (space_notMem (hg'' y hy)).1
    simpa [List.append_assoc] using hends

theorem isText_redacted : IsText (ascii "[REDACTED]") := ⟨ascii "[REDACTED]", by decide⟩

/-- A delimited text is no string text. -/
theorem not_isText_delimited {t : Bytes} (h : t ∈ (delimited (· == chr '"')).Lang) :
    ¬ IsText t := by
  rintro ⟨s, rfl⟩
  obtain ⟨u, ⟨a, ha, rfl⟩, v, -, he⟩ := mem_seq.mp h
  obtain rfl : a = chr '"' := by simpa using ha
  cases s with
  | nil => cases he
  | cons b s =>
    rw [List.flatMap_cons] at he
    exact escapeByte_append_ne_quote b _ _ he.symm

theorem actsInText_rules : ∀ R ∈ rules, ActsInText R := by
  have heq : chr '=' ∉ pieceBytes ∧ chr '=' ≠ chr '"' := by decide
  have hcolon : chr ':' ∉ pieceBytes ∧ chr ':' ≠ chr '"' := by decide
  simp only [rules, List.forall_mem_cons]
  exact ⟨⟨fun c hc => head_keyHead heq hc, fun t ht h => absurd h (not_isText_delimited ht)⟩,
    ⟨fun c hc => head_bearer hc, fun _ _ _ => isText_redacted⟩,
    ⟨fun c hc => head_keyHead hcolon hc, fun _ _ _ => isText_redacted⟩,
    ⟨fun c hc => head_keyHead heq hc, fun _ _ _ => isText_redacted⟩, by simp⟩

theorem headed_rules : ∀ R ∈ rules, Headed R := by
  simp only [rules, List.forall_mem_cons]
  exact ⟨headed_keyHead rfl (by decide), headed_bearer, headed_keyHead rfl (by decide),
    headed_keyHead rfl (by decide), by simp⟩

/-! ### One rule over a JSON text -/

/-- No head of the rule is found in the text of the key. -/
def QuietKey (R : Rule UInt8) (k : Bytes) : Prop := ∀ c ∈ R.head.Lang, ¬ c <:+: k.flatMap escapeByte

/-- Every span that the rule replaces in the text is string text. -/
def WithinStrings (R : Rule UInt8) (s : Bytes) : Prop := ∀ t ∈ R.spans s, IsText t

section

variable {R : Rule UInt8} (hR : Headed R)

/-- A stretch that is copied also leaves the spans as they are. -/
structure Copied (R : Rule UInt8) (s t : Bytes) : Prop where
  replaceAll : R.replaceAll (s ++ t) = s ++ R.replaceAll t
  spans : R.spans (s ++ t) = R.spans t

theorem copied_of_none {s t : Bytes}
    (h : ∀ s', s' <:+ s → s' ≠ [] → R.firstMatch (s' ++ t) = none) : Copied R s t :=
  ⟨R.replaceAll_append_of_none h, R.spans_append_of_none h⟩

include hR in
theorem copied_of_noWords {s t : Bytes} (hs : NoWords s) (ht : ∀ b ∈ t.head?, wordByte b = false) :
    Copied R s t :=
  copied_of_none fun _ hsuf _ => hR.none_of_noWords hs hsuf ht

include hR in
/-- No match begins with a byte of no word. -/
theorem copied_byte {b : UInt8} (hb : wordByte b = false) (t : Bytes) : Copied R [b] t := by
  refine copied_of_none fun s' hsuf hne => ?_
  obtain rfl : s' = [b] := by
    rcases List.suffix_cons_iff.mp hsuf with rfl | hnil
    · rfl
    · exact absurd (List.suffix_nil.mp hnil) hne
  exact hR.none_of_word (k := []) (by simp) hb (by decide)

theorem Copied.append {s s' t : Bytes} (h : Copied R s (s' ++ t)) (h' : Copied R s' t) :
    Copied R (s ++ s') t := by
  constructor
  · rw [List.append_assoc, h.replaceAll, h'.replaceAll, List.append_assoc]
  · rw [List.append_assoc, h.spans, h'.spans]

include hR in
/-- A quiet key is copied. -/
theorem copied_key (hact : ActsInText R) {k : Bytes} (hk : QuietKey R k) (t : Bytes) :
    Copied R (quote k) t := by
  have hquote : wordByte (chr '"') = false := by decide
  have htext : Copied R (k.flatMap escapeByte) (chr '"' :: t) := by
    refine copied_of_none fun s' hsuf _ => R.firstMatch_eq_none fun c hc hpre => ?_
    have hle : c.length ≤ s'.length := by
      by_contra hlt
      obtain ⟨u, hu, rfl, hup⟩ := prefix_append_cases hpre (by omega)
      obtain ⟨b, u, rfl⟩ := List.exists_cons_of_ne_nil hu
      obtain ⟨rfl, -⟩ := List.cons_prefix_cons.mp hup
      exact (hact.head _ hc).1 (by simp)
    have hs' : c <+: s' := List.prefix_of_prefix_length_le hpre (List.prefix_append s' _) hle
    exact hk c hc (hs'.isInfix.trans hsuf.isInfix)
  exact (copied_byte hR hquote _).append (htext.append (copied_byte hR hquote t))

/-- What a rule makes of a stretch of a JSON text and what follows it. -/
structure Rewritten (R : Rule UInt8) (s s' t : Bytes) : Prop where
  replaceAll : R.replaceAll (s ++ t) = s' ++ R.replaceAll t
  within : WithinStrings R t

theorem Copied.rewritten {s t : Bytes} (h : Copied R s t) (hw : WithinStrings R (s ++ t)) :
    Rewritten R s s t := by
  refine ⟨h.replaceAll, ?_⟩
  rw [WithinStrings, ← h.spans]
  exact hw

theorem Rewritten.append {s s' u u' t : Bytes} (h : Rewritten R s s' (u ++ t))
    (h' : Rewritten R u u' t) : Rewritten R (s ++ u) (s' ++ u') t :=
  ⟨by rw [List.append_assoc, h.replaceAll, h'.replaceAll, List.append_assoc], h'.within⟩

include hR in
/-- A string stays a string. -/
theorem rewritten_quote (hact : ActsInText R) {s t : Bytes} (hw : WithinStrings R (quote s ++ t)) :
    ∃ s', Rewritten R (quote s) (quote s') t := by
  have hquote : wordByte (chr '"') = false := by decide
  have hopen := (copied_byte hR hquote (s.flatMap escapeByte ++ chr '"' :: t)).rewritten
    (by simpa [quote] using hw)
  have hin := hopen.within
  obtain ⟨⟨s', hs'⟩, hclose⟩ := replaceAll_text (b := 0) (r := []) hact List.nil_suffix hin
  have hlast := (copied_byte hR hquote t).rewritten hclose
  refine ⟨s', ⟨?_, hlast.within⟩⟩
  have hall := hopen.replaceAll
  rw [List.nil_append, List.nil_append] at hs'
  rw [hs', show chr '"' :: t = [chr '"'] ++ t from rfl, hlast.replaceAll] at hall
  simpa [quote] using hall

end

/-- The text begins with a byte of no word, if at all. -/
def StartsPlain (t : Bytes) : Prop := ∀ b ∈ t.head?, wordByte b = false

theorem startsPlain_items (js : List Json) (t : Bytes) : StartsPlain (renderItems js ++ t) := by
  cases js with
  | nil => exact fun b hb => by cases hb; decide
  | cons j js => exact fun b hb => by cases hb; decide

theorem startsPlain_members (ms : List (Bytes × Json)) (t : Bytes) :
    StartsPlain (renderMembers ms ++ t) := by
  cases ms with
  | nil => exact fun b hb => by cases hb; decide
  | cons m ms => exact fun b hb => by cases hb; decide

section

variable {R : Rule UInt8} (hR : Headed R) (hact : ActsInText R)

include hR in
theorem rewritten_byte {b : UInt8} (hb : wordByte b = false) {t : Bytes}
    (h : WithinStrings R (b :: t)) : Rewritten R [b] [b] t :=
  (copied_byte hR hb t).rewritten h

include hR in
theorem rewritten_noWords {s t : Bytes} (hs : NoWords s) (ht : StartsPlain t)
    (h : WithinStrings R (s ++ t)) : Rewritten R s s t :=
  (copied_of_noWords hR hs ht).rewritten h

include hR hact in
/-- A member: its key is copied and its value is rewritten. -/
theorem rewritten_member {k v t : Bytes} (hk : QuietKey R k)
    (h : WithinStrings R (quote k ++ chr ':' :: (v ++ t)))
    {p : Bytes → Prop} (hv : WithinStrings R (v ++ t) → ∃ v', p v' ∧ Rewritten R v v' t) :
    ∃ v', p v' ∧ Rewritten R (quote k ++ chr ':' :: v) (quote k ++ chr ':' :: v') t := by
  have hkey := (copied_key hR hact hk (chr ':' :: (v ++ t))).rewritten h
  have hcolon := rewritten_byte hR (by decide) hkey.within
  obtain ⟨v', hp, hv'⟩ := hv hcolon.within
  exact ⟨v', hp, hkey.append (hcolon.append hv')⟩

end

/-- The text of a value and of the members after it, with the skeletons of these. -/
def RestOf (j : Json) (ms : List (Bytes × Json)) (v : Bytes) : Prop :=
  ∃ (j' : Json) (ms' : List (Bytes × Json)), v = j'.render ++ renderMembers ms' ∧
    j'.skeleton = j.skeleton ∧ memberSkeletons ms' = memberSkeletons ms

mutual

/-- What a rule makes of the text of a value is the text of a value with the same skeleton. -/
theorem rewritten_render {R : Rule UInt8} (hR : Headed R) (hact : ActsInText R) :
    ∀ {j : Json} {t : Bytes}, j.Written →
    (∀ k ∈ j.keys, QuietKey R k) → StartsPlain t → WithinStrings R (j.render ++ t) →
    ∃ j' : Json, j'.skeleton = j.skeleton ∧ Rewritten R j.render j'.render t
  | .null, t, _, _, ht, h => ⟨.null, rfl, rewritten_noWords hR (by decide) ht h⟩
  | .bool true, t, _, _, ht, h => ⟨.bool true, rfl, rewritten_noWords hR (by decide) ht h⟩
  | .bool false, t, _, _, ht, h => ⟨.bool false, rfl, rewritten_noWords hR (by decide) ht h⟩
  | .string s, t, _, _, _, h => by
    obtain ⟨s', hs⟩ := rewritten_quote hR hact h
    exact ⟨.string s', rfl, hs⟩
  | .array [], t, _, _, ht, h => ⟨.array [], rfl, rewritten_noWords hR (by decide) ht h⟩
  | .array (j :: js), t, hw, hk, ht, h => by
    simp only [keys, itemKeys, List.forall_mem_append] at hk
    have hopen := rewritten_byte hR (by decide) h
    have hin : WithinStrings R (j.render ++ (renderItems js ++ t)) := by
      rw [← List.append_assoc]
      exact hopen.within
    obtain ⟨j', hj, hfirst⟩ := rewritten_render hR hact hw.1 hk.1 (startsPlain_items js t) hin
    obtain ⟨js', hjs, hrest⟩ := rewritten_items hR hact hw.2 hk.2 hfirst.within
    exact ⟨.array (j' :: js'), congrArg Json.array (congrArg₂ List.cons hj hjs),
      hopen.append (hfirst.append hrest)⟩
  | .object [], t, _, _, ht, h => ⟨.object [], rfl, rewritten_noWords hR (by decide) ht h⟩
  | .object ((k, j) :: ms), t, hw, hk, ht, h => by
    simp only [keys, memberKeys, List.forall_mem_cons, List.forall_mem_append] at hk
    have hopen := rewritten_byte hR (by decide) h
    have hin : WithinStrings R (quote k ++ chr ':' :: (j.render ++ renderMembers ms ++ t)) := by
      simpa using hopen.within
    obtain ⟨v, ⟨j', ms', rfl, hj, hms⟩, hv⟩ :=
      rewritten_member (p := RestOf j ms) hR hact hk.1 hin fun hvalue => by
      rw [List.append_assoc] at hvalue
      obtain ⟨j', hj, hfirst⟩ :=
        rewritten_render hR hact hw.2.1 hk.2.1 (startsPlain_members ms t) hvalue
      obtain ⟨ms', hms, hrest⟩ := rewritten_members hR hact hw.2.2 hk.2.2 hfirst.within
      exact ⟨j'.render ++ renderMembers ms', ⟨j', ms', rfl, hj, hms⟩, hfirst.append hrest⟩
    exact ⟨.object ((k, j') :: ms'),
      congrArg Json.object (congrArg₂ List.cons (congrArg (Prod.mk k) hj) hms), hopen.append hv⟩

theorem rewritten_items {R : Rule UInt8} (hR : Headed R) (hact : ActsInText R) :
    ∀ {js : List Json} {t : Bytes},
    WrittenItems js → (∀ k ∈ itemKeys js, QuietKey R k) → WithinStrings R (renderItems js ++ t) →
    ∃ js', itemSkeletons js' = itemSkeletons js ∧ Rewritten R (renderItems js) (renderItems js') t
  | [], t, _, _, h => ⟨[], rfl, rewritten_byte hR (by decide) h⟩
  | j :: js, t, hw, hk, h => by
    simp only [itemKeys, List.forall_mem_append] at hk
    have hcomma := rewritten_byte hR (by decide) h
    have hin : WithinStrings R (j.render ++ (renderItems js ++ t)) := by
      rw [← List.append_assoc]
      exact hcomma.within
    obtain ⟨j', hj, hfirst⟩ := rewritten_render hR hact hw.1 hk.1 (startsPlain_items js t) hin
    obtain ⟨js', hjs, hrest⟩ := rewritten_items hR hact hw.2 hk.2 hfirst.within
    exact ⟨j' :: js', congrArg₂ List.cons hj hjs, hcomma.append (hfirst.append hrest)⟩

theorem rewritten_members {R : Rule UInt8} (hR : Headed R) (hact : ActsInText R) :
    ∀ {ms : List (Bytes × Json)}
    {t : Bytes}, WrittenMembers ms → (∀ k ∈ memberKeys ms, QuietKey R k) →
      WithinStrings R (renderMembers ms ++ t) →
    ∃ ms', memberSkeletons ms' = memberSkeletons ms ∧ Rewritten R (renderMembers ms)
      (renderMembers ms') t
  | [], t, _, _, h => ⟨[], rfl, rewritten_byte hR (by decide) h⟩
  | (k, j) :: ms, t, hw, hk, h => by
    simp only [memberKeys, List.forall_mem_cons, List.forall_mem_append] at hk
    have hcomma := rewritten_byte hR (by decide) h
    have hin : WithinStrings R (quote k ++ chr ':' :: (j.render ++ renderMembers ms ++ t)) := by
      simpa using hcomma.within
    obtain ⟨v, ⟨j', ms', rfl, hj, hms⟩, hv⟩ :=
      rewritten_member (p := RestOf j ms) hR hact hk.1 hin fun hvalue => by
      rw [List.append_assoc] at hvalue
      obtain ⟨j', hj, hfirst⟩ :=
        rewritten_render hR hact hw.1 hk.2.1 (startsPlain_members ms t) hvalue
      obtain ⟨ms', hms, hrest⟩ := rewritten_members hR hact hw.2 hk.2.2 hfirst.within
      exact ⟨j'.render ++ renderMembers ms', ⟨j', ms', rfl, hj, hms⟩, hfirst.append hrest⟩
    exact ⟨(k, j') :: ms', congrArg₂ List.cons (congrArg (Prod.mk k) hj) hms, hcomma.append hv⟩

end

/-! ### All rules -/

/-- Each rule in its turn replaces string text only. -/
def RedactsWithin : List (Rule UInt8) → Bytes → Prop
  | [], _ => True
  | R :: Rs, s => WithinStrings R s ∧ RedactsWithin Rs (R.replaceAll s)

theorem foldl_render {Rs : List (Rule UInt8)} (hR : ∀ R ∈ Rs, Headed R ∧ ActsInText R) {j : Json}
    (hw : j.Written) (hk : ∀ R ∈ Rs, ∀ k ∈ j.keys, QuietKey R k) (h : RedactsWithin Rs j.render) :
    ∃ j' : Json, j'.skeleton = j.skeleton ∧
      Rs.foldl (fun s R => R.replaceAll s) j.render = j'.render := by
  induction Rs generalizing j with
  | nil => exact ⟨j, rfl, rfl⟩
  | cons R Rs ih =>
    rw [List.forall_mem_cons] at hR hk
    have hin : WithinStrings R (j.render ++ []) := by
      rw [List.append_nil]
      exact h.1
    obtain ⟨j₁, hj₁, hrewritten⟩ :=
      rewritten_render hR.1.1 hR.1.2 hw hk.1 (by simp [StartsPlain]) hin
    have htext : R.replaceAll j.render = j₁.render := by
      simpa using hrewritten.replaceAll
    have hkeys : j₁.keys = j.keys := by rw [← keys_skeleton, hj₁, keys_skeleton]
    have hw₁ : j₁.Written := by rwa [← written_skeleton, hj₁, written_skeleton]
    have hrest := h.2
    rw [htext] at hrest
    obtain ⟨j', hj', hfold⟩ := ih hR.2 hw₁ (by rw [hkeys]; exact hk.2) hrest
    exact ⟨j', hj'.trans hj₁, by rw [List.foldl_cons, htext, hfold]⟩

/-- Redaction keeps the skeleton of a JSON text when it replaces string text only. -/
theorem redact_render {j : Json} (hw : j.Written) (hk : ∀ k ∈ j.keys, ∀ R ∈ rules, QuietKey R k)
    (h : RedactsWithin rules j.render) :
    ∃ j' : Json, j'.skeleton = j.skeleton ∧ redactLikelySecret j.render = j'.render ∧ j'.Written ∧
      (j.Encodable → j'.Encodable) := by
  obtain ⟨j', hj', hfold⟩ :=
    foldl_render (fun R hR => ⟨headed_rules R hR, actsInText_rules R hR⟩) hw
    (fun R hR k hkey => hk k hkey R hR) h
  rw [← redactLikelySecret_eq_foldl] at hfold
  refine ⟨j', hj', hfold, by rwa [← written_skeleton, hj', written_skeleton], fun he => ?_⟩
  rw [← valid_render_iff, ← hfold]
  exact valid_redactLikelySecret (valid_render he)

/-- A key without words is quiet. -/
theorem quietKey_of_noWords {k : Bytes} (h : NoWords (k.flatMap escapeByte)) :
    ∀ R ∈ rules, QuietKey R k := by
  intro R hR c hc hin
  obtain ⟨w, G, d, hw, -, -, rfl⟩ := headed_rules R hR c hc
  exact h _ hw ((List.prefix_append w (G ++ d)).isInfix.trans hin |>.map toLower)

end Kasli.Core
