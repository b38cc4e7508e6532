import Kasli.Core.RedactEdge
import Kasli.Regex.Values

/-! Where redaction first changes a text. The values of the four rules are of three kinds: between
quotes, up to a blank, and up to a blank or a quote. A text is left as it is, or it first differs
from what is left of it in a value that was not redacted. -/

namespace Kasli.Core

open Regex

def redacted : Bytes := ascii "[REDACTED]"

/-! ### The kinds of values -/

/-- `"[^"]*"` -/
def quotedKind : ValueKind redacted where
  opens b := b == chr '"'
  holds b := !(b == chr '"')
  mark_holds := by decide
  mark_opens := by decide

/-- `[^ \n\r\t]+` -/
def runKind : ValueKind redacted where
  opens b := isSpace b || b == chr ':'
  holds := notBlank
  mark_holds := by decide
  mark_opens := by decide

/-- `[^" \n\r\t]+` -/
def wordKind : ValueKind redacted where
  opens b := isSpace b || b == chr '='
  holds := notBlankOrQuote
  mark_holds := by decide
  mark_opens := by decide

/-- A head ends with its separator or with blanks. -/
theorem getLast?_keyHead {sep : UInt8} {c : Bytes} (hc : c ∈ (keyHead sep).Lang) :
    ∃ b ∈ c.getLast?, isSpace b ∨ b = sep := by
  obtain ⟨w, g, g', -, -, hg', rfl⟩ := mem_keyHead.mp hc
  by_cases hnil : g' = []
  · exact ⟨sep, by simp [hnil], .inr rfl⟩
  · obtain ⟨b, hb⟩ := Option.isSome_iff_exists.mp (List.getLast?_isSome.mpr hnil)
    have hlast : (w ++ (g ++ sep :: g')).getLast? = g'.getLast? := by
      rw [← List.singleton_append, ← List.append_assoc, ← List.append_assoc,
        List.getLast?_append_of_ne_nil _ hnil]
    exact ⟨b, by rw [hlast, hb]; rfl, .inl (hg' b (List.mem_of_getLast? hb))⟩

theorem getLast?_bearerHead {c : Bytes} (hc : c ∈ bearerHead.Lang) :
    ∃ b ∈ c.getLast?, isSpace b := by
  obtain ⟨w, g, g', w', g'', -, -, -, -, hne, hg'', rfl⟩ := mem_bearerHead.mp hc
  obtain ⟨b, hb⟩ := Option.isSome_iff_exists.mp (List.getLast?_isSome.mpr hne)
  have hlast : (w ++ (g ++ chr ':' :: (g' ++ (w' ++ g'')))).getLast? = g''.getLast? := by
    rw [← List.singleton_append, ← List.append_assoc, ← List.append_assoc, ← List.append_assoc,
      ← List.append_assoc, List.getLast?_append_of_ne_nil _ hne]
  exact ⟨b, by rw [hlast, hb]; rfl, hg'' b (List.mem_of_getLast? hb)⟩

theorem marks_plus {R : Rule UInt8} {k : ValueKind redacted} (htail : R.tail = .plus k.holds)
    (hrep : R.replacement = redacted) (hopens : ∀ c ∈ R.head.Lang, ∃ b ∈ c.getLast?, k.opens b) :
    R.Marks k [] where
  replacement := by rw [hrep, List.nil_append, List.append_nil]
  opens c hc := by
    rw [List.append_nil]
    exact hopens c hc
  tail s rest h := by
    rw [R.tailRest_plus htail] at h
    split_ifs at h
    obtain rfl := Option.some.inj h
    refine ⟨s.takeWhile k.holds, fun b hb => List.mem_takeWhile_imp hb, ?_, ?_⟩
    · intro b hb
      have hnot := List.head?_dropWhile_not k.holds s
      rw [List.nil_append] at hb
      rw [Option.mem_def.mp hb] at hnot
      simpa using hnot
    · simp

theorem marks_quoted : quotedAssignmentPattern.Marks quotedKind [chr '"'] where
  replacement := by decide
  opens c _ := ⟨chr '"', by simp, by decide⟩
  tail s rest h := by
    rw [Rule.tailRest_delimited _ rfl] at h
    split_ifs at h with hquote
    cases s with
    | nil => cases hquote
    | cons a s =>
      obtain rfl : a = chr '"' := by simpa using hquote
      refine ⟨s.takeWhile fun b => !(b == chr '"'), fun b hb => List.mem_takeWhile_imp hb,
        fun b hb => ?_, ?_⟩
      · obtain rfl : chr '"' = b := by simpa using hb
        decide
      · rw [List.tail_cons] at h
        cases hd : s.dropWhile fun b => !(b == chr '"') with
        | nil =>
          rw [hd] at h
          cases h
        | cons b r =>
          have hb := List.head?_dropWhile_not (fun b => !(b == chr '"')) s
          rw [hd] at h hb
          obtain rfl : b = chr '"' := by simpa using hb
          obtain rfl : r = rest := Option.some.inj h
          simp only [List.cons_append, List.nil_append]
          rw [← hd, List.takeWhile_append_dropWhile]

theorem marks_bearer : bearerPattern.Marks runKind [] :=
  marks_plus rfl rfl fun c hc => by
    obtain ⟨b, hb, hspace⟩ := getLast?_bearerHead hc
    exact ⟨b, hb, by simp [runKind, hspace]⟩

theorem marks_colon : colonPattern.Marks runKind [] :=
  marks_plus rfl rfl fun c hc => by
    obtain ⟨b, hb, hlast⟩ := getLast?_keyHead hc
    exact ⟨b, hb, by simpa [runKind] using hlast⟩

theorem marks_assignment : assignmentPattern.Marks wordKind [] :=
  marks_plus rfl rfl fun c hc => by
    obtain ⟨b, hb, hlast⟩ := getLast?_keyHead hc
    exact ⟨b, hb, by simpa [wordKind] using hlast⟩

/-! ### The first change -/

/-- The text is left as it is, or first changed in a value of one of the kinds. -/
def Redacts (K : List (ValueKind redacted)) (s t : Bytes) : Prop := t = s ∨ ∃ k ∈ K, Changes k s t

theorem Redacts.replaceAll {K : List (ValueKind redacted)} {s t : Bytes} (h : Redacts K s t)
    {R : Rule UInt8} {k : ValueKind redacted} {quote : Bytes} (hR : R.Marks k quote)
    (hK : ∀ k' ∈ K, EndsAlike k' k) : Redacts (k :: K) s (R.replaceAll t) := by
  rcases hR.replaceAll_eq_or_changes t with heq | hchanges
  · rw [heq]
    exact h.imp id fun ⟨k', hk', hs⟩ => ⟨k', List.mem_cons_of_mem k hk', hs⟩
  · refine .inr ?_
    rcases h with rfl | ⟨k', hk', hs⟩
    · exact ⟨k, List.mem_cons_self, hchanges⟩
    · rcases hs.trans hchanges (hK k' hk') with hfirst | hfirst
      · exact ⟨k', List.mem_cons_of_mem k hk', hfirst⟩
      · exact ⟨k, List.mem_cons_self, hfirst⟩

theorem redacts_redactLikelySecret (s : Bytes) :
    Redacts [wordKind, runKind, runKind, quotedKind] s (redactLikelySecret s) := by
  have hquote {k : ValueKind redacted} (h : k.opens (chr '"') = false) : EndsAlike quotedKind k := by
    intro a ha ha'
    obtain rfl : a = chr '"' := by simpa [quotedKind] using ha
    rw [h] at ha'
    cases ha'
  have hrun : EndsAlike runKind runKind := fun _ _ _ _ hb => hb
  have hword : EndsAlike runKind wordKind := by
    intro a _ _ b hb
    change (!(b == chr '"') && notBlank b) = false
    rw [show notBlank b = false from hb, Bool.and_false]
  have hstart : Redacts [] s s := .inl rfl
  have hQ := hstart.replaceAll marks_quoted (by simp)
  have hB := hQ.replaceAll marks_bearer (by simpa using hquote (by decide))
  have hC := hB.replaceAll marks_colon (by simpa using ⟨hrun, hquote (by decide)⟩)
  exact hC.replaceAll marks_assignment (by simpa using ⟨hword, hquote (by decide)⟩)

end Kasli.Core
