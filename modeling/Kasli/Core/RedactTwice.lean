import Kasli.Core.RedactHeads

/-! Redacting twice. What is redacted is settled for all four rules: each has settled it in its
turn, and the rules after it have nothing to replace where it has a match. So redacting again
changes nothing. -/

namespace Kasli.Core

open Regex Regex.Pattern Regex.Rule

/-- Where the rule has a match in what `R'` has rewritten, `R'` has none. -/
def Yields (R R' : Rule UInt8) : Prop :=
  ∀ u m, R.firstMatch (R'.replaceAll u) = some m → R'.firstMatch u = none

/-- No head of the one rule begins a head of the other. -/
theorem yields_of_heads {R R' : Rule UInt8} (hR : R ∈ rules) (hR' : R' ∈ rules)
    (h : ∀ c ∈ R.head.Lang, ∀ c' ∈ R'.head.Lang, ¬ c <+: c') : Yields R R' := by
  rintro u ⟨kept, rest⟩ hm
  obtain ⟨hkept, r, hr, -⟩ := R.firstMatch_eq_some hm
  cases hm' : R'.firstMatch u with
  | none => rfl
  | some m =>
    have hprefix := isPrefix_of_match (clear_rules hR hR') hkept hm' ⟨r, hr⟩
    exact absurd hprefix (h kept hkept m.1 (R'.firstMatch_eq_some hm').1)

theorem not_prefix_of_sep_ne {sep sep' : UInt8} (hsep : IsSeparator sep) (hsep' : IsSeparator sep')
    (hne : sep ≠ sep') : ∀ c ∈ (keyHead sep).Lang, ∀ c' ∈ (keyHead sep').Lang, ¬ c <+: c' := by
  rintro c hc c' hc' ⟨d, hd⟩
  obtain ⟨w, g, r, hw, hg, -, rfl⟩ := mem_keyHead.mp hc
  obtain ⟨w', g', r', hw', hg', -, rfl⟩ := mem_keyHead.mp hc'
  simp only [List.append_assoc, List.cons_append] at hd
  exact hne (word_sep_inj (firstWord_bytes hw.firstWord) (firstWord_bytes hw'.firstWord) hg hg'
    hsep hsep' hd).2.2.1

/-- The word before a bearer is no key. -/
theorem authorization_ne {w w' : Bytes} (hw : IsKeyWord w)
    (hw' : w'.map toLower = ascii "authorization") : w ≠ w' := by
  rintro rfl
  have hnot : ascii "authorization" ∉ keyWords := by decide
  exact hnot (hw' ▸ hw)

theorem not_prefix_bearer {sep : UInt8} (hsep : IsSeparator sep) : ∀ c ∈ (keyHead sep).Lang,
    ∀ c' ∈ bearerHead.Lang, ¬ c <+: c' ∧ ¬ c' <+: c := by
  intro c hc c' hc'
  obtain ⟨w, g, r, hw, hg, -, rfl⟩ := mem_keyHead.mp hc
  obtain ⟨w', g', r', v, t, hw', hg', -, -, -, -, rfl⟩ := mem_bearerHead.mp hc'
  have hfirst : ∀ b ∈ w', wordByte b := firstWord_bytes (by rw [hw']; decide)
  have hne := authorization_ne hw hw'
  constructor
  · rintro ⟨d, hd⟩
    simp only [List.append_assoc, List.cons_append] at hd
    exact hne (word_sep_inj (firstWord_bytes hw.firstWord) hfirst hg hg' hsep (.inr rfl) hd).1
  · rintro ⟨d, hd⟩
    simp only [List.append_assoc, List.cons_append] at hd
    exact hne (word_sep_inj hfirst (firstWord_bytes hw.firstWord) hg' hg (.inr rfl) hsep hd).1.symm

/-- The rule for values that are not quoted leaves no quote where it has a match. -/
theorem yields_assignment : Yields quotedAssignmentPattern assignmentPattern := by
  have hQ : quotedAssignmentPattern ∈ rules := quoted_mem
  have hA : assignmentPattern ∈ rules := by simp [rules]
  rintro u ⟨kept, rest⟩ hm
  obtain ⟨hkept, r, hr, htail⟩ := Rule.firstMatch_eq_some _ hm
  cases hm' : assignmentPattern.firstMatch u with
  | none => rfl
  | some m =>
    obtain ⟨d, hd⟩ := isPrefix_of_match (clear_rules hQ hA) hkept hm' ⟨r, hr⟩
    have hc := (assignmentPattern.firstMatch_eq_some hm').1
    have hrest : r = d ++ (assignmentPattern.replacement ++ assignmentPattern.replaceAll m.2) := by
      rw [assignmentPattern.replaceAll_hit hm', ← hd, List.append_assoc, List.append_assoc,
        List.append_cancel_left_eq] at hr
      exact hr
    rw [Rule.tailRest_delimited _ rfl] at htail
    split_ifs at htail with hquote
    cases d with
    | nil =>
      rw [hrest] at hquote
      cases hquote
    | cons b d =>
      rw [hrest] at hquote
      obtain rfl : b = chr '"' := by simpa using hquote
      exact absurd (hd ▸ List.mem_append_right kept List.mem_cons_self)
        (quote_notMem_rules _ hA m.1 hc)

/-- Every rule yields to the ones after it. -/
theorem yields_rules : rules.Pairwise Yields := by
  have hQ : quotedAssignmentPattern ∈ rules := quoted_mem
  have hB : bearerPattern ∈ rules := by simp [rules]
  have hC : colonPattern ∈ rules := by simp [rules]
  have hA : assignmentPattern ∈ rules := by simp [rules]
  have hequal : IsSeparator (chr '=') := .inl rfl
  have hcolon : IsSeparator (chr ':') := .inr rfl
  simp only [rules, List.pairwise_cons, List.forall_mem_cons]
  refine ⟨⟨?_, ?_, yields_assignment, by simp⟩, ⟨?_, ?_, by simp⟩, ⟨?_, by simp⟩, by simp⟩
  · exact yields_of_heads hQ hB fun c hc c' hc' => (not_prefix_bearer hequal c hc c' hc').1
  · exact yields_of_heads hQ hC (not_prefix_of_sep_ne hequal hcolon (by decide))
  · exact yields_of_heads hB hC fun c hc c' hc' => (not_prefix_bearer hcolon c' hc' c hc).2
  · exact yields_of_heads hB hA fun c hc c' hc' => (not_prefix_bearer hequal c' hc' c hc).2
  · exact yields_of_heads hC hA (not_prefix_of_sep_ne hcolon hequal (by decide))

/-! ### All rules -/

/-- What is settled for a rule stays so under the rules that it yields to. -/
theorem settled_foldl_of_yields {R : Rule UInt8} (hR : R ∈ rules) {Rs : List (Rule UInt8)}
    (hRs : ∀ R' ∈ Rs, R' ∈ rules ∧ Yields R R') {s : Bytes} (hs : R.Settled s) :
    R.Settled (Rs.foldl (fun s R => R.replaceAll s) s) := by
  induction Rs generalizing s with
  | nil => exact hs
  | cons R' Rs ih =>
    rw [List.forall_mem_cons] at hRs
    exact ih hRs.2 ((compatible_rules hR hRs.1.1).settled_replaceAll hs hRs.1.2)

/-- Rules that each yield to the ones after it settle a text for all of them. -/
theorem settled_foldl {Rs : List (Rule UInt8)} (hRs : ∀ R ∈ Rs, R ∈ rules)
    (hyields : Rs.Pairwise Yields) (s : Bytes) :
    ∀ R ∈ Rs, R.Settled (Rs.foldl (fun s R => R.replaceAll s) s) := by
  induction Rs generalizing s with
  | nil => simp
  | cons R Rs ih =>
    rw [List.forall_mem_cons] at hRs ⊢
    rw [List.pairwise_cons] at hyields
    have hsettled := (compatible_rules hRs.1 hRs.1).settled s
    exact ⟨settled_foldl_of_yields hRs.1 (fun R' hR' => ⟨hRs.2 R' hR', hyields.1 R' hR'⟩) hsettled,
      ih hRs.2 hyields.2 (R.replaceAll s)⟩

theorem foldl_of_settled {Rs : List (Rule UInt8)} {s : Bytes} (h : ∀ R ∈ Rs, R.Settled s) :
    Rs.foldl (fun s R => R.replaceAll s) s = s := by
  induction Rs with
  | nil => rfl
  | cons R Rs ih =>
    rw [List.forall_mem_cons] at h
    rw [List.foldl_cons, h.1.replaceAll_eq, ih h.2]

theorem settled_redactLikelySecret (s : Bytes) : ∀ R ∈ rules, R.Settled (redactLikelySecret s) :=
  settled_foldl (fun _ hR => hR) yields_rules s

/-- Redaction leaves alone exactly the texts in which no rule has anything left to replace. -/
theorem redactLikelySecret_eq_self_iff {s : Bytes} :
    redactLikelySecret s = s ↔ ∀ R ∈ rules, R.Settled s := by
  constructor
  · intro h
    have hsettled := settled_redactLikelySecret s
    rwa [h] at hsettled
  · intro h
    rw [redactLikelySecret_eq_foldl]
    exact foldl_of_settled h

/-- Redacting twice is redacting once. -/
theorem redactLikelySecret_idempotent (s : Bytes) :
    redactLikelySecret (redactLikelySecret s) = redactLikelySecret s := by
  rw [redactLikelySecret_eq_foldl (redactLikelySecret s)]
  exact foldl_of_settled (settled_redactLikelySecret s)

end Kasli.Core
