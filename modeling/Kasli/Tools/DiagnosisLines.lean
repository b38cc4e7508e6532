import Mathlib.Algebra.GroupWithZero.Nat
import Kasli.Core.RedactUtf8
import Kasli.Text.Lines
import Kasli.Tools.Bodies

/-! The last lines of a diagnosis. Whatever the messages and the properties before them are, the
body of a diagnosis that is not cut ends with three lines of its own: two flags and the verdict. -/

namespace Kasli.Tools

open Core

/-- The text of the diagnosis is not too long. -/
def DiagnosisFits (unit : Bytes) (status journal : ToolResponse) : Prop :=
  (BodyInput.diagnosis unit status journal).fullText.length ≤ maxDiagnosisBodyBytes

instance (unit : Bytes) (status journal : ToolResponse) :
    Decidable (DiagnosisFits unit status journal) :=
  inferInstanceAs (Decidable (_ ≤ _))

theorem diagnose_body {unit : Bytes} {status journal : ToolResponse}
    (h : DiagnosisFits unit status journal) (request : ToolRequest) (timestamp : Bytes) :
    firstEvidenceBody (diagnose request unit timestamp status journal) =
      (BodyInput.diagnosis unit status journal).fullText := by
  have hbody := formatDiagnosisBody_eq request unit timestamp status journal
  have hformat := (BodyInput.diagnosis unit status journal).format_eq
  rw [BodyInput.format] at hformat
  rw [hformat] at hbody
  exact (Option.some.inj hbody).trans (capped_of_le h)

/-- A flag or a verdict of the diagnosis on a line. -/
def said (key value : Bytes) : Bytes := key ++ ascii "=" ++ value

/-- A value that is written as it is, on one line. -/
def IsFixed (value : Bytes) : Prop := chr '=' ∉ value ∧ chr ':' ∉ value ∧ newline ∉ value

instance (value : Bytes) : Decidable (IsFixed value) := inferInstanceAs (Decidable (_ ∧ _))

theorem isFixed_boolText : ∀ value : Bool, IsFixed (boolText value) := by decide

theorem isFixed_diagnosis (statusValues : OrderedMap Bytes Bytes) (statusOk journalOk : Bool) :
    IsFixed (diagnosis statusValues statusOk journalOk) := by
  unfold diagnosis
  dsimp only
  split_ifs <;> decide

theorem diagnosisText_eq {key value : Bytes} (h : IsFixed value) :
    diagnosisText (key, value) = line (said key value) := by
  rw [diagnosisText, redactLikelySecret_eq_self h.1 h.2.1]
  rfl

/-- How long lines of keys and values are. -/
theorem length_flatMap_said (pairs : List (Bytes × Bytes)) :
    (pairs.flatMap fun p => line (said p.1 p.2)).length =
      (pairs.map fun p => p.1.length + p.2.length + 2).sum := by
  have hsign : (ascii "=").length = 1 := by decide
  induction pairs with
  | nil => rfl
  | cons p pairs ih =>
    rw [List.flatMap_cons, List.length_append, ih, List.map_cons, List.sum_cons, line, said,
      List.length_append, List.length_append, List.length_append, hsign, List.length_singleton]
    omega

/-- Values that are written as they are, on lines that are short together. -/
def PlainLines (pairs : List (Bytes × Bytes)) (bound : ℕ) : Prop :=
  (∀ p ∈ pairs, IsFixed p.2) ∧ (pairs.map fun p => p.1.length + p.2.length + 2).sum ≤ bound

instance (pairs : List (Bytes × Bytes)) (bound : ℕ) : Decidable (PlainLines pairs bound) :=
  inferInstanceAs (Decidable ((∀ p ∈ pairs, IsFixed p.2) ∧ _))

theorem PlainLines.append {pairs pairs' : List (Bytes × Bytes)} {bound bound' : ℕ}
    (h : PlainLines pairs bound)
    (h' : PlainLines pairs' bound') : PlainLines (pairs ++ pairs') (bound + bound') := by
  refine ⟨List.forall_mem_append.mpr ⟨h.1, h'.1⟩, ?_⟩
  rw [List.map_append, List.sum_append]
  exact Nat.add_le_add h.2 h'.2

theorem length_diagnosis_le (statusValues : OrderedMap Bytes Bytes) (statusOk journalOk : Bool) :
    (diagnosis statusValues statusOk journalOk).length ≤ 46 := by
  unfold diagnosis
  dsimp only
  split_ifs <;> decide

theorem length_boolText_le : ∀ value : Bool, (boolText value).length ≤ 5 := by decide

/-- The two flags and the verdict. -/
def closingPairs (present terms : Bool) (verdict : Bytes) : List (Bytes × Bytes) :=
  [(ascii "journal_entries_present", boolText present),
    (ascii "journal_failure_terms_present", boolText terms), (ascii "diagnosis", verdict)]

theorem plainLines_closing (present terms : Bool) (statusValues : OrderedMap Bytes Bytes)
    (statusOk journalOk : Bool) :
    PlainLines (closingPairs present terms (diagnosis statusValues statusOk journalOk)) 128 := by
  constructor
  · simp only [closingPairs, List.forall_mem_cons]
    exact ⟨isFixed_boolText _, isFixed_boolText _, isFixed_diagnosis _ _ _, by simp⟩
  · have hpresent : (ascii "journal_entries_present").length = 23 := by decide
    have hterms : (ascii "journal_failure_terms_present").length = 29 := by decide
    have hverdict : (ascii "diagnosis").length = 9 := by decide
    have hlast := length_diagnosis_le statusValues statusOk journalOk
    have hfirst := length_boolText_le present
    have hsecond := length_boolText_le terms
    simp only [closingPairs, List.map_cons, List.map_nil, List.sum_cons, List.sum_nil, hpresent,
      hterms, hverdict]
    omega

/-- A diagnosis is not too long when the lines before the last three are short. -/
theorem diagnosisFits_of_plain {unit : Bytes} {status journal : ToolResponse}
    (h : PlainLines ((diagnosisLines unit status journal).take
      ((diagnosisLines unit status journal).length - 3))
      (maxDiagnosisBodyBytes - 128)) : DiagnosisFits unit status journal := by
  obtain ⟨before, hbefore⟩ : ∃ before, diagnosisLines unit status journal = before ++
    closingPairs (hasNonEmptyEvidenceBody journal)
      (containsFailureTerms (firstEvidenceBody journal))
      (diagnosis (parseKeyValueLines (firstEvidenceBody status)) (status.status =
        .ok) (journal.status = .ok)) := ⟨_, rfl⟩
  have htake : (diagnosisLines unit status journal).take
      ((diagnosisLines unit status journal).length - 3) = before := by
    simp [hbefore, closingPairs]
  have hplain : PlainLines (diagnosisLines unit status journal) maxDiagnosisBodyBytes := by
    rw [htake] at h
    rw [hbefore]
    exact h.append (plainLines_closing _ _ _ _ _)
  have htext : (diagnosisLines unit status journal).map diagnosisText =
      (diagnosisLines unit status journal).map fun p => line (said p.1 p.2) :=
    List.map_congr_left fun p hp => diagnosisText_eq (hplain.1 p hp)
  rw [DiagnosisFits, BodyInput.fullText, htext, ← List.flatMap_def, length_flatMap_said]
  exact hplain.2

theorem newline_notMem_said {key value : Bytes} (hkey : newline ∉ key) (h : IsFixed value) :
    newline ∉ said key value := by
  have hsign : newline ∉ ascii "=" := by decide
  simp [said, hkey, h.2.2, hsign]

section

variable (unit : Bytes) (status journal : ToolResponse)

/-- What the diagnosis says of the status and the journal. -/
def verdict : Bytes :=
  diagnosis (parseKeyValueLines (firstEvidenceBody status)) (status.status = .ok)
    (journal.status = .ok)

/-- The lines at the end. -/
def closingLines : List Bytes :=
  [said (ascii "journal_entries_present") (boolText (hasNonEmptyEvidenceBody journal)),
    said (ascii "journal_failure_terms_present")
      (boolText (containsFailureTerms (firstEvidenceBody journal))),
    said (ascii "diagnosis") (verdict status journal)]

/-- A line of the diagnosis begins where the last one ended. -/
theorem atLineStart_diagnosis (before : List (Bytes × Bytes)) :
    AtLineStart (before.map diagnosisText).flatten := by
  rcases List.eq_nil_or_concat before with rfl | ⟨before, last, rfl⟩
  · exact fun b hb => by cases hb
  · rw [List.concat_eq_append, List.map_append, List.flatten_append, List.map_singleton,
      List.flatten_singleton]
    exact atLineStart_append_line _ _

theorem completeLines_diagnosis :
    ∃ before, completeLines (BodyInput.diagnosis unit status journal).fullText =
    before ++ closingLines status journal := by
  have hflag (value : Bool) :=
    @diagnosisText_eq (ascii "journal_entries_present") _ (isFixed_boolText value)
  have hterms (value : Bool) :=
    @diagnosisText_eq (ascii "journal_failure_terms_present") _ (isFixed_boolText value)
  have hverdict := @diagnosisText_eq (ascii "diagnosis") _
    (isFixed_diagnosis (parseKeyValueLines (firstEvidenceBody status)) (status.status =
      .ok) (journal.status = .ok))
  rw [BodyInput.fullText, diagnosisLines, List.map_append, List.flatten_append]
  simp only [List.map_cons, List.map_nil, List.flatten_cons, List.flatten_nil, hflag, hterms,
    hverdict, List.append_nil, ← List.append_assoc]
  rw [completeLines_append_line (atLineStart_append_line _ _)
      (newline_notMem_said (by decide) (isFixed_diagnosis _ _ _)),
    completeLines_append_line (atLineStart_append_line _ _)
      (newline_notMem_said (by decide) (isFixed_boolText _)),
    completeLines_append_line (atLineStart_diagnosis _)
      (newline_notMem_said (by decide) (isFixed_boolText _))]
  exact ⟨_, by simp [closingLines, verdict]; rfl⟩

end

end Kasli.Tools
