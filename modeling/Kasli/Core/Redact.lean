import Kasli.Regex.Tails
import Kasli.Text.Utf8

/-! Redaction of likely secrets (`core/json.cpp`). Four rules run one after
another over the whole text: a quoted value after `key =`, a bearer credential, a
value after `key :`, and an unquoted value after `key =`. Each keeps the part up to
the value. Matching ignores the case of letters, and letters are ASCII only. -/

namespace Kasli.Core

open Regex Regex.Pattern

/-! ### The four rules -/

/-- A lower-case literal, matched in any case. -/
def litWord (s : String) : Pattern UInt8 := word ((ascii s).map fun c b => toLower b == c)

/-- `\s*` -/
def blanks : Pattern UInt8 := .many isSpace

/-- `api[_-]?key` -/
def apiKey : Pattern UInt8 :=
  .seq (litWord "api") (.seq (opt fun b => b == chr '_' || b == chr '-') (litWord "key"))

/-- `password|passwd|token|secret|api[_-]?key` -/
def keyPattern : Pattern UInt8 :=
  .alt (litWord "password") (.alt (litWord "passwd") (.alt (litWord "token")
    (.alt (litWord "secret") apiKey)))

/-- A key, a separator, and blanks around the separator. -/
def keyHead (sep : UInt8) : Pattern UInt8 :=
  .seq keyPattern (.seq blanks (.seq (.cls (· == sep)) blanks))

/-- `Authorization\s*:\s*Bearer\s+` -/
def bearerHead : Pattern UInt8 :=
  .seq (litWord "authorization") (.seq blanks (.seq (.cls (· == chr ':')) (.seq blanks
    (.seq (litWord "bearer") (plus isSpace)))))

/-- `[^ \n\r\t]` -/
def notBlank (b : UInt8) : Bool := !(b == 0x20 || b == 0x0A || b == 0x0D || b == 0x09)

/-- `[^" \n\r\t]` -/
def notBlankOrQuote (b : UInt8) : Bool := !(b == chr '"') && notBlank b

/-- The seven words of `keyPattern`, in lower case. -/
def keyWords : List Bytes :=
  ["password", "passwd", "token", "secret", "api_key", "api-key", "apikey"].map ascii

/-- One of the key words, in any case. -/
def IsKeyWord (w : Bytes) : Prop := w.map toLower ∈ keyWords

instance (w : Bytes) : Decidable (IsKeyWord w) := inferInstanceAs (Decidable (_ ∈ keyWords))

theorem mem_word_lower (l c : Bytes) :
    c ∈ (word (l.map fun a b => toLower b == a)).Lang ↔ c.map toLower = l := by
  induction l generalizing c with
  | nil => simp [word]
  | cons a l ih =>
    rw [List.map_cons, mem_word_cons, List.map_eq_cons_iff]
    constructor
    · rintro ⟨b, d, hb, hd, rfl⟩
      exact ⟨b, d, rfl, by simpa using hb, (ih d).mp hd⟩
    · rintro ⟨b, d, rfl, hb, hd⟩
      exact ⟨b, d, by simpa using hb, (ih d).mpr hd, rfl⟩

theorem mem_litWord {s : String} {c : Bytes} : c ∈ (litWord s).Lang ↔ c.map toLower = ascii s :=
  mem_word_lower (ascii s) c

/-- Only letters have another case. -/
theorem toLower_eq_dash (b : UInt8) : toLower b = chr '_' ∨ toLower b = chr '-' ↔
    b = chr '_' ∨ b = chr '-' :=
  forall_byte (p := fun b => toLower b = chr '_' ∨ toLower b = chr '-' ↔ b = chr '_' ∨ b = chr '-')
    (by decide +kernel) b

theorem mem_apiKey {c : Bytes} :
    c ∈ apiKey.Lang ↔ c.map toLower ∈ ["api_key", "api-key", "apikey"].map ascii := by
  simp only [apiKey, opt, mem_seq, mem_alt, mem_cls, mem_empty, mem_litWord]
  have happ : ∀ m : Bytes, (∃ u, u.map toLower = ascii "api" ∧ ∃ v, v.map toLower = ascii "key" ∧
      u ++ (m ++ v) = c) → c.map toLower = ascii "api" ++ m.map toLower ++ ascii "key" := by
    rintro m ⟨u, hu, v, hv, rfl⟩
    simp [hu, hv]
  constructor
  · rintro ⟨u, hu, _, ⟨m, hm, v, hv, rfl⟩, rfl⟩
    have h := happ m ⟨u, hu, v, hv, rfl⟩
    rcases hm with ⟨b, hb, rfl⟩ | rfl
    · simp only [Bool.or_eq_true, beq_iff_eq] at hb
      rcases hb with rfl | rfl
      · rw [h]; decide
      · rw [h]; decide
    · rw [h]; decide
  · intro h
    have hcut : ∀ m : Bytes, c.map toLower = ascii "api" ++ (m ++ ascii "key") →
        ∃ u, u.map toLower = ascii "api" ∧ ∃ m', m'.map toLower = m ∧
          ∃ v, v.map toLower = ascii "key" ∧ u ++ (m' ++ v) = c := by
      intro m hm
      obtain ⟨u, r, rfl, hu, hr⟩ := List.map_eq_append_iff.mp hm
      obtain ⟨m', v, rfl, hm', hv⟩ := List.map_eq_append_iff.mp hr
      exact ⟨u, hu, m', hm', v, hv, rfl⟩
    simp only [List.map_cons, List.map_nil, List.mem_cons, List.not_mem_nil, or_false] at h
    rcases h with h | h | h
    · obtain ⟨u, hu, m, hm, v, hv, rfl⟩ := hcut [chr '_'] (h.trans (by decide))
      obtain ⟨b, rfl, hb⟩ := List.map_eq_singleton_iff.mp hm
      have hb' := (toLower_eq_dash b).mp (Or.inl hb)
      exact ⟨u, hu, [b] ++ v, ⟨[b], Or.inl ⟨b, by simpa using hb', rfl⟩, v, hv, rfl⟩, rfl⟩
    · obtain ⟨u, hu, m, hm, v, hv, rfl⟩ := hcut [chr '-'] (h.trans (by decide))
      obtain ⟨b, rfl, hb⟩ := List.map_eq_singleton_iff.mp hm
      have hb' := (toLower_eq_dash b).mp (Or.inr hb)
      exact ⟨u, hu, [b] ++ v, ⟨[b], Or.inl ⟨b, by simpa using hb', rfl⟩, v, hv, rfl⟩, rfl⟩
    · obtain ⟨u, hu, m, hm, v, hv, rfl⟩ := hcut [] (h.trans (by decide))
      obtain rfl := List.map_eq_nil_iff.mp hm
      exact ⟨u, hu, [] ++ v, ⟨[], Or.inr rfl, v, hv, rfl⟩, rfl⟩

/-- The alternation accepts exactly the seven key words. -/
theorem mem_keyPattern {c : Bytes} : c ∈ keyPattern.Lang ↔ IsKeyWord c := by
  simp only [keyPattern, mem_alt, mem_litWord, mem_apiKey, IsKeyWord, keyWords, List.map_cons,
    List.map_nil, List.mem_cons, List.not_mem_nil, or_false]

theorem mem_keyHead {sep : UInt8} {c : Bytes} :
    c ∈ (keyHead sep).Lang ↔ ∃ w g g', IsKeyWord w ∧ (∀ b ∈ g, isSpace b) ∧ (∀ b ∈ g', isSpace b) ∧
      c = w ++ (g ++ sep :: g') := by
  simp only [keyHead, blanks, mem_seq, mem_keyPattern, mem_many, mem_cls, beq_iff_eq]
  constructor
  · rintro ⟨w, hw, _, ⟨g, hg, _, ⟨_, ⟨_, rfl, rfl⟩, g', hg', rfl⟩, rfl⟩, rfl⟩
    exact ⟨w, g, g', hw, hg, hg', rfl⟩
  · rintro ⟨w, g, g', hw, hg, hg', rfl⟩
    exact ⟨w, hw, _, ⟨g, hg, _, ⟨_, ⟨_, rfl, rfl⟩, g', hg', rfl⟩, rfl⟩, rfl⟩

theorem mem_bearerHead {c : Bytes} :
    c ∈ bearerHead.Lang ↔ ∃ w g g' w' g'', w.map toLower = ascii "authorization" ∧
      (∀ b ∈ g, isSpace b) ∧ (∀ b ∈ g', isSpace b) ∧ w'.map toLower = ascii "bearer" ∧
      g'' ≠ [] ∧ (∀ b ∈ g'', isSpace b) ∧ c = w ++ (g ++ chr ':' :: (g' ++ (w' ++ g''))) := by
  simp only [bearerHead, blanks, mem_seq, mem_litWord, mem_many, mem_cls, beq_iff_eq, mem_plus]
  constructor
  · rintro ⟨w, hw, _, ⟨g, hg, _,
      ⟨_, ⟨_, rfl, rfl⟩, _, ⟨g', hg', _, ⟨w', hw', g'', ⟨hne, hg''⟩, rfl⟩, rfl⟩, rfl⟩, rfl⟩, rfl⟩
    exact ⟨w, g, g', w', g'', hw, hg, hg', hw', hne, hg'', rfl⟩
  · rintro ⟨w, g, g', w', g'', hw, hg, hg', hw', hne, hg'', rfl⟩
    exact ⟨w, hw, _, ⟨g, hg, _, ⟨_, ⟨_, rfl, rfl⟩, _, ⟨g', hg', _, ⟨w', hw', g'', ⟨hne, hg''⟩, rfl⟩,
      rfl⟩, rfl⟩, rfl⟩, rfl⟩

theorem nil_notMem_keyHead (sep : UInt8) : [] ∉ (keyHead sep).Lang := by
  rw [mem_keyHead]
  rintro ⟨w, g, g', -, -, -, h⟩
  simp at h

theorem nil_notMem_bearerHead : [] ∉ bearerHead.Lang := by
  rw [mem_bearerHead]
  rintro ⟨w, g, g', w', g'', -, -, -, -, -, -, h⟩
  simp at h

def quotedAssignmentPattern : Rule UInt8 where
  head := keyHead (chr '=')
  tail := delimited (· == chr '"')
  replacement := ascii "\"[REDACTED]\""
  head_pos := nil_notMem_keyHead _

def assignmentPattern : Rule UInt8 where
  head := keyHead (chr '=')
  tail := plus notBlankOrQuote
  replacement := ascii "[REDACTED]"
  head_pos := nil_notMem_keyHead _

def colonPattern : Rule UInt8 where
  head := keyHead (chr ':')
  tail := plus notBlank
  replacement := ascii "[REDACTED]"
  head_pos := nil_notMem_keyHead _

def bearerPattern : Rule UInt8 where
  head := bearerHead
  tail := plus notBlank
  replacement := ascii "[REDACTED]"
  head_pos := nil_notMem_bearerHead

def redactLikelySecret (input : Bytes) : Bytes :=
  let redacted := quotedAssignmentPattern.replaceAll input
  let redacted := bearerPattern.replaceAll redacted
  let redacted := colonPattern.replaceAll redacted
  assignmentPattern.replaceAll redacted

example : redactLikelySecret (ascii "password: hunter2 Token =\"abc def\" x") =
    ascii "password: [REDACTED] Token =\"[REDACTED]\" x" := by decide +kernel

end Kasli.Core
