import Kasli.Tools.DiagnosisLines
import Kasli.Tools.JournalScope

/-! What the diagnosis says of the journal. It takes a journal body that is not blank for a sign of
entries; but the line that counts invalid lines is not blank, and the line of an entry
without a priority and a message is. -/

namespace Kasli.Tools

open Core Regex

/-! ### Blank texts -/

theorem isBlank_append (s t : Bytes) :
    isBlank (s ++ t) = (isBlank s && isBlank t) := List.all_append

theorem isBlank_flatMap {A : Type} (l : List A) (f : A → Bytes) :
    isBlank (l.flatMap f) = l.all fun a => isBlank (f a) := by
  induction l with
  | nil => rfl
  | cons a l ih => rw [List.flatMap_cons, isBlank_append, ih, List.all_cons]

/-- A rule does not make a text blank. -/
theorem isBlank_of_replaceAll {R : Rule UInt8} (hR : isBlank R.replacement = false) {s : Bytes}
    (h : isBlank (R.replaceAll s) = true) : isBlank s = true := by
  induction s using R.scan_induction with
  | nil => rfl
  | skip a s hm ih =>
    rw [R.replaceAll_skip hm, isBlank, List.all_cons, Bool.and_eq_true] at h
    rw [isBlank, List.all_cons, h.1]
    exact ih h.2
  | hit s kept rest hm ih =>
    rw [R.replaceAll_hit hm, isBlank_append, isBlank_append, hR] at h
    simp at h

/-- A blank text has nothing to hide. -/
theorem redactLikelySecret_of_isBlank {s : Bytes} (h : isBlank s = true) :
    redactLikelySecret s = s := by
  have hnot : ∀ b, isBlank [b] = false → b ∉ s := fun b hb hmem => by
    have hall := List.all_eq_true.mp h b hmem
    simp only [isBlank, List.all_cons, List.all_nil, Bool.and_true, hall] at hb
    exact absurd hb (by decide)
  exact redactLikelySecret_eq_self (hnot _ (by decide)) (hnot _ (by decide))

theorem isBlank_redactLikelySecret (s : Bytes) : isBlank (redactLikelySecret s) = isBlank s := by
  cases h : isBlank s with
  | true => rw [redactLikelySecret_of_isBlank h, h]
  | false =>
    by_contra hblank
    rw [Bool.not_eq_false] at hblank
    have h₁ := isBlank_of_replaceAll (by decide) (isBlank_of_replaceAll (by decide)
      (isBlank_of_replaceAll (by decide) (isBlank_of_replaceAll (by decide) hblank)))
    rw [h] at h₁
    cases h₁

namespace Journal

section

variable {parse : Bytes → Option Json} {unit : Bytes}

/-- The entry has something to read in its line. -/
def Visible (entry : Json) : Prop :=
  isBlank (jsonStringValue entry (ascii "PRIORITY")) = false ∨
    isBlank (jsonStringValue entry (ascii "MESSAGE")) = false

theorem isBlank_fixtureLine (entry : Json) : isBlank (fixtureLine entry) = false ↔
    Visible entry := by
  have hspace : isBlank (ascii " ") = true := by decide
  have hnewline : isBlank (ascii "\n") = true := by decide
  rw [fixtureLine, isBlank_append, isBlank_append, isBlank_append, hspace, hnewline,
    isBlank_redactLikelySecret, Visible, Bool.and_true, Bool.and_true, Bool.and_eq_false_iff]

theorem isBlank_skippedLine (n : ℕ) : isBlank (skippedLine n) = false := by
  rw [skippedLine, isBlank_append, isBlank_append, show isBlank (ascii "skipped_invalid_entries=") =
    false by decide]
  simp

theorem isBlank_closing (n invalid : ℕ) : isBlank (closing n invalid) = false ↔ maxEntries < n ∨
    0 < invalid := by
  unfold closing
  by_cases hmore : n > maxEntries
  · rw [if_pos hmore]
    exact iff_of_true (by decide) (.inl hmore)
  · rw [if_neg hmore]
    by_cases hinvalid : invalid > 0
    · rw [if_pos hinvalid]
      exact iff_of_true (isBlank_skippedLine invalid) (.inr hinvalid)
    · rw [if_neg hinvalid]
      exact iff_of_false (by decide) fun h => h.elim hmore hinvalid

/-- A text that is cut has the marker to read. -/
theorem isBlank_capped (cap : ℕ) (text : Bytes) :
    isBlank (capped truncatedMarker cap text) = false ↔ cap < text.length ∨
      isBlank text = false := by
  rcases Nat.lt_or_ge cap text.length with hlong | hfits
  · rw [capped_of_lt hlong, isBlank_append, show isBlank truncatedMarker =
      false by decide, Bool.and_false]
    exact iff_of_true rfl (.inl hlong)
  · rw [capped_of_le hfits]
    exact ⟨.inr, fun h => h.resolve_left (by omega)⟩

theorem isBlank_scopedText (input : List Bytes) : isBlank (scopedText parse unit input) = false ↔
    (∃ entry ∈ (matching parse unit input).take maxEntries, Visible entry) ∨
      maxEntries < (matching parse unit input).length ∨ 0 < invalid parse input := by
  rw [scopedText, isBlank_append, isBlank_flatMap, Bool.and_eq_false_iff, isBlank_closing,
    List.all_eq_false]
  simp only [Bool.not_eq_true, isBlank_fixtureLine]

/-- How much the entries take when nothing of them is redacted. -/
def plainSize (entries : List Json) : ℕ :=
  (entries.map fun entry =>
    (jsonStringValue entry (ascii "PRIORITY")).length +
      (jsonStringValue entry (ascii "MESSAGE")).length + 2).sum

theorem length_of_not_visible {entries : List Json} (h : ∀ entry ∈ entries, ¬ Visible entry) :
    (entries.flatMap fixtureLine).length = plainSize entries := by
  induction entries with
  | nil => rfl
  | cons entry entries ih =>
    rw [List.forall_mem_cons] at h
    have hmessage : isBlank (jsonStringValue entry (ascii "MESSAGE")) = true :=
      (Bool.not_eq_false _).mp fun hvisible => h.1 (.inr hvisible)
    rw [List.flatMap_cons, List.length_append, ih h.2, plainSize, plainSize, List.map_cons,
      List.sum_cons, fixtureLine, redactLikelySecret_of_isBlank hmessage]
    simp only [List.length_append, show (ascii " ").length =
      1 by decide, show (ascii "\n").length = 1 by decide]
    omega

variable (parse unit) in
/-- There is something to read in the body of the journal. -/
def Shown (input : List Bytes) : Prop :=
  maxEntries < (matching parse unit input).length ∨ 0 < invalid parse input ∨
    (∃ entry ∈ matching parse unit input, Visible entry) ∨
      maxBodyBytes < plainSize (matching parse unit input)

theorem isBlank_body (input : List Bytes) :
    isBlank (capped truncatedMarker maxBodyBytes (scopedText parse unit input)) = false ↔
      Shown parse unit input := by
  rw [isBlank_capped, isBlank_scopedText, Shown]
  by_cases hclosed : maxEntries < (matching parse unit input).length ∨ 0 < invalid parse input
  · exact iff_of_true (.inr (.inr hclosed)) (hclosed.elim .inl fun h => .inr (.inl h))
  rw [not_or] at hclosed
  -- all entries are written, and nothing after them
  have htake : (matching parse unit input).take maxEntries = matching parse unit input :=
    List.take_of_length_le (Nat.not_lt.mp hclosed.1)
  rw [htake]
  by_cases hvisible : ∃ entry ∈ matching parse unit input, Visible entry
  · exact iff_of_true (.inr (.inl hvisible)) (.inr (.inr (.inl hvisible)))
  have hlength : (scopedText parse unit input).length = plainSize (matching parse unit input) := by
    rw [scopedText, closing, if_neg hclosed.1, if_neg hclosed.2, htake, List.append_nil]
    exact length_of_not_visible fun entry hentry h => hvisible ⟨entry, hentry, h⟩
  rw [hlength]
  simp only [hclosed.1, hclosed.2, hvisible, false_or, or_false]

/-! ### The flag -/

variable (parse unit) in
/-- A line of the fixture is an entry of the unit. -/
def HasEntry (input : List Bytes) : Prop := ∃ line ∈ input, ∃ entry, entryOf parse line =
    some entry ∧ unitOf entry = unit

theorem hasEntry_iff (input : List Bytes) : HasEntry parse unit input ↔
    matching parse unit input ≠ [] := by
  rw [HasEntry, matching, ne_eq, List.filter_eq_nil_iff]
  simp only [List.mem_filterMap, decide_eq_true_eq, forall_exists_index, and_imp]
  constructor
  · rintro ⟨line, hline, entry, hentry, hunit⟩ h
    exact h entry line hline hentry hunit
  · intro h
    by_contra hnone
    exact h fun entry line hline hentry hunit => hnone ⟨line, hline, entry, hentry, hunit⟩

/-- The body of a diagnosis says that the journal has entries, in the last line but two. -/
def SaysPresent (body : Bytes) : Prop :=
  (completeLines body).reverse[2]? = some (ascii "journal_entries_present=true")

instance (body : Bytes) : Decidable (SaysPresent body) := inferInstanceAs (Decidable (_ = _))

theorem saysPresent_iff {status journal : ToolResponse} (h : DiagnosisFits unit status journal)
    (request : ToolRequest) (timestamp : Bytes) : SaysPresent
      (firstEvidenceBody (diagnose request unit timestamp status journal)) ↔
      hasNonEmptyEvidenceBody journal = true := by
  obtain ⟨before, hlines⟩ := completeLines_diagnosis unit status journal
  rw [SaysPresent, diagnose_body h, hlines, closingLines, List.reverse_append]
  cases hasNonEmptyEvidenceBody journal with
  | true => exact iff_of_true (by rfl) rfl
  | false => exact iff_of_false (by simp; decide) (by decide)

/-- The flag is right exactly when there is something to read in the body of the journal if and
only if it has an entry. -/
theorem presence_iff (path time : Bytes) (text : Bytes) (request : ToolRequest) (timestamp : Bytes)
    (status : ToolResponse) {journal : ToolResponse}
    (hcall : journalFixtureCall parse path (some text) time
      (childRequest request (ascii "journal") (ascii "journal.query") unit) = some journal)
    (hok : journal.status = .ok) (hfits : DiagnosisFits unit status journal) :
    (SaysPresent (firstEvidenceBody (diagnose request unit timestamp status journal)) ↔
        HasEntry parse unit (getLines text)) ↔
      (matching parse unit (getLines text) = [] → invalid parse (getLines text) = 0) ∧
        (matching parse unit (getLines text) ≠ [] → Shown parse unit (getLines text)) := by
  have hparam : Systemd.unitParam (childRequest request (ascii "journal") (ascii "journal.query")
    unit) = unit := rfl
  have hunit : isBlank unit = false := by
    by_contra hblank
    rw [journalFixtureCall, hparam, if_pos ((Bool.not_eq_false _).mp hblank)] at hcall
    obtain rfl := Option.some.inj hcall
    cases hok
  rw [journalFixtureCall_eq parse path time (hparam.symm ▸ hunit), hparam] at hcall
  obtain rfl := Option.some.inj hcall
  rw [saysPresent_iff hfits, hasEntry_iff]
  have hflag : hasNonEmptyEvidenceBody
    (okResponse (childRequest request (ascii "journal") (ascii "journal.query") unit)
      (ascii "journal.query") (ascii "journal fixture queried")
        (ascii "bounded journal entries for " ++ unit)
      (capped truncatedMarker maxBodyBytes (scopedText parse unit (getLines text))) time) = true ↔
        Shown parse unit (getLines text) := by
    rw [← isBlank_body, hasNonEmptyEvidenceBody, okResponse]
    simp
  rw [hflag]
  by_cases hnone : matching parse unit (getLines text) = []
  · -- without an entry only an invalid line is read
    have hshown : Shown parse unit (getLines text) ↔ 0 < invalid parse (getLines text) := by
      simp [Shown, hnone, plainSize, maxEntries, maxBodyBytes]
    rw [hshown]
    simp only [hnone, ne_eq, not_true, iff_false, forall_const, false_imp_iff, and_true]
    omega
  · simp [hnone]

end

/-- The response of the journal to a query for the unit of the request. -/
def sshResponse (body : Bytes) : ToolResponse :=
  okResponse (childRequest sshRequest (ascii "journal") (ascii "journal.query")
    (ascii "ssh.service")) (ascii "journal.query") (ascii "journal fixture queried")
    (ascii "bounded journal entries for ssh.service") body []

/-- An entry of the unit, and a parser that reads it from the line `{}`. -/
def startedEntry : Json :=
  .object [(ascii "MESSAGE", .string (ascii "started")), (ascii "PRIORITY", .string (ascii "6")),
    (ascii "_SYSTEMD_UNIT", .string (ascii "ssh.service"))]

def startedParser (line : Bytes) : Option Json :=
  if line = ascii "\x7b\x7d" then some startedEntry else none

/-- A fixture with that line and one that is no entry. -/
def startedText : Bytes := ascii "\x7b\x7d\nx\n"

theorem presence_iff_started :
    (SaysPresent (firstEvidenceBody
      (diagnose sshRequest (ascii "ssh.service") [] (Tools.missingUnitResponse sshRequest)
        (sshResponse (ascii "6 started\nskipped_invalid_entries=1\n")))) ↔
      HasEntry startedParser (ascii "ssh.service") (getLines startedText)) ↔
      (matching startedParser (ascii "ssh.service") (getLines startedText) = [] →
        invalid startedParser (getLines startedText) = 0) ∧
        (matching startedParser (ascii "ssh.service") (getLines startedText) ≠ [] →
          Shown startedParser (ascii "ssh.service") (getLines startedText)) :=
  presence_iff (ascii "journal.jsonl") [] startedText sshRequest []
    (Tools.missingUnitResponse sshRequest) (by decide +kernel) rfl
    (diagnosisFits_of_plain (by decide +kernel))

/-- A line that is no entry is taken for one. -/
theorem absent_entry_shown : ¬ ∀ (parse : Bytes → Option Json) (unit path time text : Bytes)
    (request : ToolRequest) (timestamp : Bytes) (status journal : ToolResponse),
    journalFixtureCall parse path (some text) time
      (childRequest request (ascii "journal") (ascii "journal.query") unit) = some journal →
    journal.status = .ok → DiagnosisFits unit status journal →
    (SaysPresent (firstEvidenceBody (diagnose request unit timestamp status journal)) ↔
      HasEntry parse unit (getLines text)) := by
  intro h
  have hfits : DiagnosisFits (ascii "ssh.service") (Tools.missingUnitResponse sshRequest)
      (sshResponse (ascii "skipped_invalid_entries=1\n")) :=
    diagnosisFits_of_plain (by decide +kernel)
  have hpresent := (h emptyObject (ascii "ssh.service") (ascii "journal.jsonl") [] (ascii "x\n")
    sshRequest [] _ _
    (by decide +kernel) rfl hfits).mp ((saysPresent_iff hfits _ _).mpr (by decide))
  rw [hasEntry_iff] at hpresent
  exact hpresent rfl

end Journal

end Kasli.Tools
