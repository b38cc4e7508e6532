import Kasli.Core.Redact

/-! Redaction keeps a text well formed. What a rule keeps is ASCII, so a match
begins between characters; the value it drops ends at an ASCII byte or at the end of
the text, so the rest begins between characters again. A text without `=` and `:`
is left as it is. -/

namespace Kasli.Core

open Regex Regex.Pattern Utf8

theorem isSpace_ascii {b : UInt8} (h : isSpace b) : b < 0x80 := by
  revert h
  exact forall_byte (p := fun b => isSpace b → b < 0x80) (by decide +kernel) b

theorem toLower_ascii {b : UInt8} (h : toLower b < 0x80) : b < 0x80 := by
  revert h
  exact forall_byte (p := fun b => toLower b < 0x80 → b < 0x80) (by decide +kernel) b

theorem isAscii_of_map_toLower {w : Bytes} (h : IsAscii (w.map toLower)) : IsAscii w :=
  fun _ hb => toLower_ascii (h _ (List.mem_map_of_mem hb))

theorem IsKeyWord.isAscii {w : Bytes} (h : IsKeyWord w) : IsAscii w := by
  apply isAscii_of_map_toLower
  have hall : ∀ k ∈ keyWords, IsAscii k := by decide
  exact hall _ h

theorem keyHead_ascii {sep : UInt8} (hsep : sep < 0x80) : ∀ c ∈ (keyHead sep).Lang, IsAscii c := by
  intro c hc
  obtain ⟨w, g, g', hw, hg, hg', rfl⟩ := mem_keyHead.mp hc
  simp only [isAscii_append, isAscii_cons]
  exact ⟨hw.isAscii, fun b hb => isSpace_ascii (hg b hb), hsep, fun b hb =>
    isSpace_ascii (hg' b hb)⟩

theorem bearerHead_ascii : ∀ c ∈ bearerHead.Lang, IsAscii c := by
  intro c hc
  obtain ⟨w, g, g', w', g'', hw, hg, hg', hw', -, hg'', rfl⟩ := mem_bearerHead.mp hc
  have haw : IsAscii w := isAscii_of_map_toLower (hw ▸ by decide)
  have haw' : IsAscii w' := isAscii_of_map_toLower (hw' ▸ by decide)
  simp only [isAscii_append, isAscii_cons]
  exact ⟨haw, fun b hb => isSpace_ascii (hg b hb), by decide, fun b hb => isSpace_ascii (hg' b hb),
    haw', fun b hb => isSpace_ascii (hg'' b hb)⟩

/-- Replacing with an ASCII head, an ASCII constant and tails that end between characters. -/
theorem accepts_replaceAll (R : Rule UInt8) (hhead : ∀ c ∈ R.head.Lang, IsAscii c)
    (hrepl : IsAscii R.replacement) (htail : ∀ s r, R.tailRest s = some r → Valid s → Valid r)
    (s : Bytes) : ∀ q, Accepts q s → Accepts q (R.replaceAll s) := by
  induction s using R.scan_induction with
  | nil => exact fun q h => h
  | skip a s hm ih =>
    intro q h
    rw [R.replaceAll_skip hm]
    obtain ⟨q', hq, h'⟩ := (accepts_cons q a s).mp h
    exact (accepts_cons q a _).mpr ⟨q', hq, ih q' h'⟩
  | hit s kept rest hm ih =>
    intro q h
    rw [R.replaceAll_hit hm]
    obtain ⟨hk, r, rfl, hr⟩ := R.firstMatch_eq_some hm
    obtain ⟨h0, hvr⟩ := (accepts_ascii_append (hhead kept hk) (R.kept_ne_nil hm) r).mp h
    rw [List.append_assoc, accepts_ascii_append (hhead kept hk) (R.kept_ne_nil hm),
      valid_ascii_append hrepl]
    exact ⟨h0, ih start (htail r rest hr hvr)⟩

/-- A run that stops only at ASCII bytes stops between characters. -/
theorem valid_tailRest_plus {R : Rule UInt8} {p : UInt8 → Bool} (h : R.tail = plus p)
    (hp : ∀ b, p b = false → b < 0x80) (s r : Bytes) (hr : R.tailRest s = some r) (hs : Valid s) :
    Valid r := by
  rw [R.tailRest_plus h] at hr
  split_ifs at hr with _
  obtain rfl := Option.some.inj hr
  rw [← List.takeWhile_append_dropWhile (p := p) (l := s)] at hs
  refine (accepts_split hs ?_).2
  intro b hb
  have hd := List.head?_dropWhile_not p s
  rw [Option.mem_def] at hb
  rw [hb] at hd
  exact hp b (by simpa using hd)

theorem valid_tailRest_delimited {R : Rule UInt8} (h : R.tail = delimited (· == chr '"'))
    (s r : Bytes) (hr : R.tailRest s = some r) (hs : Valid s) : Valid r := by
  obtain ⟨t, ht, rfl⟩ := R.tailRest_eq_some hr
  rw [h] at ht
  simp only [delimited, mem_seq, mem_cls, beq_iff_eq] at ht
  obtain ⟨_, ⟨_, rfl, rfl⟩, _, ⟨m, -, _, ⟨_, rfl, rfl⟩, rfl⟩, rfl⟩ := ht
  have hq : chr '"' < 0x80 := by decide
  rw [List.append_assoc, List.append_assoc, List.singleton_append, List.singleton_append] at hs
  have hrest := ((accepts_ascii_cons hq (m ++ chr '"' :: r)).mp hs).2
  have hcut := (accepts_split (s := m) (t := chr '"' :: r) hrest (by simp [hq])).2
  exact ((accepts_ascii_cons hq r).mp hcut).2

theorem notBlank_false_ascii {b : UInt8} (h : notBlank b = false) : b < 0x80 := by
  revert h
  exact forall_byte (p := fun b => notBlank b = false → b < 0x80) (by decide +kernel) b

theorem notBlankOrQuote_false_ascii {b : UInt8} (h : notBlankOrQuote b = false) : b < 0x80 := by
  revert h
  exact forall_byte (p := fun b => notBlankOrQuote b = false → b < 0x80) (by decide +kernel) b

/-- Redaction keeps a text well-formed UTF-8. -/
theorem valid_redactLikelySecret {s : Bytes} (h : Valid s) : Valid (redactLikelySecret s) := by
  have h₁ := accepts_replaceAll quotedAssignmentPattern (keyHead_ascii (by decide)) (by decide)
    (valid_tailRest_delimited rfl) _ start h
  have h₂ := accepts_replaceAll bearerPattern bearerHead_ascii (by decide)
    (valid_tailRest_plus rfl fun _ => notBlank_false_ascii) _ start h₁
  have h₃ := accepts_replaceAll colonPattern (keyHead_ascii (by decide)) (by decide)
    (valid_tailRest_plus rfl fun _ => notBlank_false_ascii) _ start h₂
  exact accepts_replaceAll assignmentPattern (keyHead_ascii (by decide)) (by decide)
    (valid_tailRest_plus rfl fun _ => notBlankOrQuote_false_ascii) _ start h₃

/-- What a redacted text has was there before, or stands in a replacement. -/
theorem mem_redactLikelySecret {s : Bytes} {b : UInt8} (h : b ∈ redactLikelySecret s) :
    b ∈ s ∨ b ∈ ascii "\"[REDACTED]\"" := by
  have hrepl : ∀ b ∈ ascii "[REDACTED]", b ∈ ascii "\"[REDACTED]\"" := by decide
  rcases assignmentPattern.mem_replaceAll h with h | h
  · rcases colonPattern.mem_replaceAll h with h | h
    · rcases bearerPattern.mem_replaceAll h with h | h
      · exact quotedAssignmentPattern.mem_replaceAll h
      · exact .inr (hrepl b h)
    · exact .inr (hrepl b h)
  · exact .inr (hrepl b h)

/-- Redaction keeps a text ASCII. -/
theorem isAscii_redactLikelySecret {s : Bytes} (h : IsAscii s) :
    IsAscii (redactLikelySecret s) := by
  have hrepl : IsAscii (ascii "\"[REDACTED]\"") := by decide
  exact fun b hb => (mem_redactLikelySecret hb).elim (h b) (hrepl b)

/-! ### Texts without a separator -/

theorem replaceAll_eq_self (R : Rule UInt8) {s : Bytes} {b : UInt8}
    (hhead : ∀ c ∈ R.head.Lang, b ∈ c) (hs : b ∉ s) : R.replaceAll s = s := by
  have h := R.replaceAll_append_of_none (s := s) (t := []) fun s' hs' _ =>
    R.firstMatch_eq_none fun c hc hp =>
      hs (hs'.subset (by simpa using hp.subset (hhead c hc)))
  simpa using h

theorem sep_mem_keyHead {sep : UInt8} : ∀ c ∈ (keyHead sep).Lang, sep ∈ c := by
  intro c hc
  obtain ⟨w, g, g', -, -, -, rfl⟩ := mem_keyHead.mp hc
  simp

theorem colon_mem_bearerHead : ∀ c ∈ bearerHead.Lang, chr ':' ∈ c := by
  intro c hc
  obtain ⟨w, g, g', w', g'', -, -, -, -, -, -, rfl⟩ := mem_bearerHead.mp hc
  simp

/-- Without `=` and `:` there is nothing to redact. -/
theorem redactLikelySecret_eq_self {s : Bytes} (he : chr '=' ∉ s) (hc : chr ':' ∉ s) :
    redactLikelySecret s = s := by
  simp only [redactLikelySecret]
  rw [replaceAll_eq_self quotedAssignmentPattern sep_mem_keyHead he,
    replaceAll_eq_self bearerPattern colon_mem_bearerHead hc,
    replaceAll_eq_self colonPattern sep_mem_keyHead hc,
    replaceAll_eq_self assignmentPattern sep_mem_keyHead he]

end Kasli.Core
