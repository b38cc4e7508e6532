import Kasli.Tools.RowText

/-! When the body of a tool is well-formed UTF-8. Its text is, if the strings are that it is made
of. A text that is too long is cut at a byte, whatever character that byte belongs to; so
the body is well formed exactly when no character is open there. -/

namespace Kasli.Tools

open Core Utf8

theorem IsRow.valid {text : Bytes} (h : IsRow Valid text) : Valid text := by
  obtain ⟨t, ht, rfl⟩ := h
  exact valid_append ht (by decide)

theorem valid_rowsText {header rows : List Bytes} (hheader : ∀ s ∈ header, Valid s)
    (hrows : ∀ text ∈ rows, IsRow Valid text) (hasMoreRows : Bool) :
    Valid (Body.rowsText header rows hasMoreRows) := by
  have hmark : Valid (if hasMoreRows then truncatedMarker else []) := by
    split_ifs
    · decide
    · decide
  exact valid_append (valid_append (valid_flatten hheader) (valid_flatten fun text h =>
    (hrows text h).valid)) hmark

theorem valid_countHeader {count none : Bytes} (hcount : IsAscii count)
    (hnone : IsAscii none) (rows : ℕ) : ∀ s ∈ countHeader count none rows, Valid s := by
  have hnewline : IsAscii (ascii "\n") := by decide
  have hfirst : IsAscii (count ++ decimal rows ++ ascii "\n") := by
    simp [hcount, isAscii_decimal, hnewline]
  unfold countHeader
  simp only [List.forall_mem_append, List.forall_mem_singleton]
  refine ⟨valid_of_isAscii hfirst, ?_⟩
  split_ifs
  · simpa using valid_of_isAscii hnone
  · simp

/-! ### The strings of a body -/

def Systemd.SystemdUnitStatusEvidence.strings (evidence : Systemd.SystemdUnitStatusEvidence) :
    List Bytes :=
  [evidence.unit, evidence.id, evidence.description, evidence.loadState, evidence.activeState,
    evidence.subState, evidence.unitFileState, evidence.fragmentPath, evidence.serviceResult,
    evidence.execMainCode, evidence.execMainStatus]

def Hardware.HardwareSummary.strings (summary : Hardware.HardwareSummary) : List Bytes :=
  [summary.architecture, summary.cpu.vendorId, summary.cpu.modelName, summary.dmi.systemVendor,
    summary.dmi.productName, summary.dmi.productVersion, summary.dmi.boardVendor,
      summary.dmi.boardName,
    summary.dmi.biosVendor, summary.dmi.biosVersion, summary.dmi.chassisType]

namespace BodyInput

/-- The strings that the body is made of are well formed. A parser of JSON accepts nothing else. -/
def ValidStrings : BodyInput → Prop
  | .unitsList rows _ => ∀ s ∈ rows.flatMap Systemd.SystemdUnitListRow.strings, Valid s
  | .failedServices rows _ => ∀ s ∈ rows.flatMap Systemd.FailedServiceRow.strings, Valid s
  | .enabledServices rows _ => ∀ s ∈ rows.flatMap Systemd.EnabledServiceRow.strings, Valid s
  | .unitStatus evidence => ∀ s ∈ evidence.strings, Valid s
  | .diskUsage rows _ => ∀ s ∈ rows.flatMap Disk.DiskUsageRow.strings, Valid s
  | .networkSummary rows _ => ∀ s ∈ rows.flatMap Network.NetworkInterfaceRow.strings, Valid s
  | .powerStatus rows _ => ∀ s ∈ rows.flatMap Power.PowerSupplyRow.strings, Valid s
  | .hardwareSummary summary =>
    (∀ s ∈ summary.strings, Valid s) ∧
      ∀ s ∈ summary.gpuDevices.flatMap Hardware.GpuDeviceRow.strings, Valid s
  | .packageChanges rows _ => ∀ s ∈ rows.flatMap Package.PackageChangeRow.strings, Valid s
  | .packageList rows _ => ∀ s ∈ rows.flatMap Package.PackageListRow.strings, Valid s
  | .journalFixture parse _ input => ∀ line ∈ input, ∀ json ∈ parse line, json.Encodable
  | .liveJournal read => ∀ entry ∈ read, (∀ s ∈ entry.priority, Valid s) ∧
      ∀ s ∈ entry.message, Valid s
  | .diagnosis unit status journal =>
    Valid unit ∧ Valid status.message ∧ Valid journal.message ∧ Valid (firstEvidenceBody status)

end BodyInput

/-! ### The status of a unit and the hardware -/

theorem valid_propertyLine {key value : Bytes} (hkey : IsAscii key) (h : Valid value) :
    Valid (Systemd.propertyLine key value) :=
  valid_append (valid_append (valid_append (valid_of_isAscii hkey) (by decide))
    (valid_redactLikelySecret h)) (by decide)

theorem valid_unitStatusLines {evidence : Systemd.SystemdUnitStatusEvidence}
    (h : ∀ s ∈ evidence.strings, Valid s) : ∀ s ∈ Systemd.unitStatusLines evidence, Valid s := by
  simp only [Systemd.SystemdUnitStatusEvidence.strings, List.forall_mem_cons] at h
  obtain ⟨h₁, h₂, h₃, h₄, h₅, h₆, h₇, h₈, h₉, h₁₀, h₁₁, -⟩ := h
  unfold Systemd.unitStatusLines
  simp only [List.forall_mem_append, List.forall_mem_cons]
  refine ⟨⟨?_, ?_, ?_, ?_, ?_, ?_, ?_, ?_, by simp⟩, ?_⟩
  case refine_9 =>
    split_ifs
    · simp only [List.forall_mem_cons]
      exact ⟨valid_propertyLine (by decide) h₉, valid_propertyLine (by decide) h₁₀,
        valid_propertyLine (by decide) h₁₁, by simp⟩
    · simp
  all_goals exact valid_propertyLine (by decide) ‹_›

theorem valid_textLine {key value : Bytes} (hkey : IsAscii key) (h : Valid value) :
    Valid (Hardware.textLine key value) :=
  valid_append (valid_append (valid_of_isAscii hkey)
    (kept_valid.redact (kept_valid.unknownIfEmpty h))) (by decide)

theorem valid_numberLine {key : Bytes} (hkey : IsAscii key) (n : ℕ) :
    Valid (Hardware.numberLine key n) :=
  valid_append (valid_append (valid_of_isAscii hkey) (valid_of_isAscii (isAscii_decimal n)))
    (by decide)

theorem valid_summaryLines {summary : Hardware.HardwareSummary}
    (h : ∀ s ∈ summary.strings, Valid s) : ∀ s ∈ Hardware.summaryLines summary, Valid s := by
  simp only [Hardware.HardwareSummary.strings, List.forall_mem_cons] at h
  obtain ⟨h₁, h₂, h₃, h₄, h₅, h₆, h₇, h₈, h₉, h₁₀, h₁₁, -⟩ := h
  simp only [Hardware.summaryLines, List.forall_mem_cons]
  refine ⟨by decide, ?_, ?_, ?_, ?_, ?_, ?_, ?_, ?_, ?_, ?_, ?_, ?_, ?_, ?_, ?_, ?_, ?_, by simp⟩
  all_goals first | exact valid_textLine (by decide) ‹_› | exact valid_numberLine (by decide) _

/-! ### The journal -/

theorem valid_jsonStringValue {entry : Json} (h : entry.Encodable) (key : Bytes) :
    Valid (Journal.jsonStringValue entry key) := by
  unfold Journal.jsonStringValue
  split
  next members =>
    rw [Json.encodable_object] at h
    split
    next value hvalue =>
      exact (Json.encodable_string value).mp (h _ (OrderedMap.mem_of_lookup hvalue)).2
    next => decide
  next => decide

theorem valid_fixtureLine {entry : Json} (h : entry.Encodable) :
    Valid (Journal.fixtureLine entry) :=
  valid_append (valid_append (valid_append (valid_jsonStringValue h _) (by decide))
    (valid_redactLikelySecret (valid_jsonStringValue h _))) (by decide)

theorem valid_skippedLine (n : ℕ) : Valid (Journal.skippedLine n) :=
  valid_append (valid_append (by decide) (valid_of_isAscii (isAscii_decimal n))) (by decide)

theorem entryOf_eq_some {parse : Bytes → Option Json} {line : Bytes} {entry : Json}
    (h : Journal.entryOf parse line = some entry) : parse line = some entry := by
  unfold Journal.entryOf at h
  split at h
  next members hparse => rw [hparse]; exact h
  next => cases h

theorem valid_fixtureText {parse : Bytes → Option Json} (unit : Bytes) {input : List Bytes}
    (h : ∀ line ∈ input, ∀ json ∈ parse line, json.Encodable) (n skipped : ℕ) :
    Valid (Journal.fixtureText parse unit n skipped input) := by
  induction input generalizing n skipped with
  | nil =>
    rw [Journal.fixtureText]
    split_ifs
    · exact valid_skippedLine skipped
    · decide
  | cons line rest ih =>
    rw [List.forall_mem_cons] at h
    have ih := ih h.2
    rw [Journal.fixtureText]
    split
    · exact ih n (skipped + 1)
    next entry hentry =>
      split_ifs
      · exact ih n skipped
      · decide
      · exact valid_append (valid_fixtureLine (h.1 entry (entryOf_eq_some hentry)))
          (ih (n + 1) skipped)

theorem valid_fieldValue {name : Bytes} (hname : IsAscii name) {field : Option Bytes}
    (h : ∀ s ∈ field, Valid s) : Valid (Journal.fieldValue name field) := by
  unfold Journal.fieldValue
  split
  next s =>
    have hs : Valid s := h s rfl
    split_ifs with hstarts
    · obtain ⟨t, rfl⟩ := hstarts
      simpa using (valid_ascii_append hname t).mp hs
    · decide
  next => decide

theorem valid_liveText {read : List Journal.JournalEntry}
    (h : ∀ entry ∈ read, (∀ s ∈ entry.priority, Valid s) ∧ ∀ s ∈ entry.message, Valid s) (n : ℕ) :
    Valid (Journal.liveText n read) := by
  induction read generalizing n with
  | nil => exact (by decide : Valid [])
  | cons entry rest ih =>
    rw [List.forall_mem_cons] at h
    rw [Journal.liveText]
    split_ifs
    · decide
    · have hpriority := valid_fieldValue (by decide : IsAscii (ascii "PRIORITY=")) h.1.1
      have hmessage := valid_fieldValue (by decide : IsAscii (ascii "MESSAGE=")) h.1.2
      exact valid_append (valid_append (valid_append (valid_append hpriority (by decide))
        (valid_redactLikelySecret hmessage)) (by decide)) (ih h.2 (n + 1))

/-! ### The diagnosis -/

theorem valid_of_parseKeyValueLines {body key value : Bytes} (h : Valid body)
    (hv : (parseKeyValueLines body).find? key = some value) : Valid value := by
  rw [parseKeyValueLines, OrderedMap.find?_ofList] at hv
  obtain ⟨line, hline, hparse⟩ := List.mem_filterMap.mp (OrderedMap.mem_of_lookup hv)
  have hjoined : [chr '\n'].intercalate (body.splitOn (chr '\n')) = body :=
    List.intercalate_splitOn _
  rw [← hjoined] at h
  have hvalid := valid_of_intercalate (by decide) h line hline
  obtain ⟨-, -, rfl⟩ := parseKeyValueLine_eq_some.mp hparse
  exact ((accepts_append_ascii_cons (by decide) key value).mp hvalid).2

theorem valid_diagnosisText {line : Bytes × Bytes} (hkey : IsAscii line.1) (h : Valid line.2) :
    Valid (diagnosisText line) :=
  valid_append (valid_append (valid_append (valid_of_isAscii hkey) (by decide))
    (valid_redactLikelySecret h)) (by decide)

theorem isAscii_diagnosis (statusValues : OrderedMap Bytes Bytes) (statusOk journalOk : Bool) :
    IsAscii (diagnosis statusValues statusOk journalOk) := by
  unfold diagnosis
  dsimp only
  split_ifs <;> decide

theorem valid_diagnosisLines {unit : Bytes} {status journal : ToolResponse} (hunit : Valid unit)
    (hstatus : Valid status.message) (hjournal : Valid journal.message)
    (hbody : Valid (firstEvidenceBody status)) :
    ∀ line ∈ diagnosisLines unit status journal, IsAscii line.1 ∧ Valid line.2 := by
  have htext : ∀ value : ToolStatus, Valid value.toString := fun value => by cases value <;> decide
  have hbool : ∀ value : Bool, Valid (boolText value) := by decide
  have hkeys : ∀ key ∈ statusKeys, IsAscii key := by decide
  unfold diagnosisLines
  simp only [List.forall_mem_append, List.forall_mem_cons]
  refine ⟨⟨⟨⟨by decide, hunit⟩, ⟨by decide, htext _⟩, ⟨by decide, hstatus⟩, ⟨by decide, htext _⟩,
    ⟨by decide, hjournal⟩, by simp⟩, ?_⟩, ⟨by decide, hbool _⟩, ⟨by decide, hbool _⟩,
    ⟨by decide, valid_of_isAscii (isAscii_diagnosis _ _ _)⟩, by simp⟩
  -- a property of the status
  intro line hline
  obtain ⟨key, hkey, hvalue⟩ := List.mem_filterMap.mp hline
  obtain ⟨value, hfilter, rfl⟩ := Option.map_eq_some_iff.mp hvalue
  exact ⟨hkeys key hkey, valid_of_parseKeyValueLines hbody (Option.filter_eq_some_iff.mp hfilter).1⟩

/-! ### Bodies -/

namespace BodyInput

theorem valid_fullText {input : BodyInput} (h : input.ValidStrings) : Valid input.fullText := by
  have hP := kept_valid
  cases input with
  | unitsList rows more => exact valid_rowsText (by simp) (forall_isRow hP.unitRow h) more
  | failedServices rows more =>
    exact valid_rowsText (valid_countHeader (by decide) (by decide) _)
      (forall_isRow hP.failedServiceRow h) more
  | enabledServices rows more =>
    exact valid_rowsText (valid_countHeader (by decide) (by decide) _)
      (forall_isRow hP.enabledServiceRow h) more
  | unitStatus evidence => exact valid_flatten (valid_unitStatusLines h)
  | diskUsage rows more =>
    exact valid_rowsText (valid_countHeader (by decide) (by decide) _)
      (forall_isRow hP.diskUsageRow h) more
  | networkSummary rows more =>
    exact valid_rowsText (valid_countHeader (by decide) (by decide) _)
      (forall_isRow hP.networkRow h) more
  | powerStatus rows more =>
    exact valid_rowsText (valid_countHeader (by decide) (by decide) _)
      (forall_isRow hP.powerRow h) more
  | hardwareSummary summary =>
    exact valid_rowsText (valid_summaryLines h.1)
      (forall_isRow hP.gpuRow h.2) summary.hasMoreGpuDevices
  | packageChanges rows more =>
    exact valid_rowsText (valid_countHeader (by decide) (by decide) _)
      (forall_isRow hP.packageChangeRow h) more
  | packageList rows more =>
    exact valid_rowsText (valid_countHeader (by decide) (by decide) _)
      (forall_isRow hP.packageListRow h) more
  | journalFixture parse unit input => exact valid_fixtureText unit h 0 0
  | liveJournal read => exact valid_liveText h 0
  | diagnosis unit status journal =>
    obtain ⟨hunit, hstatus, hjournal, hbody⟩ := h
    refine valid_flatten ?_
    rw [List.forall_mem_map]
    intro line hline
    have hvalid := valid_diagnosisLines hunit hstatus hjournal hbody line hline
    exact valid_diagnosisText hvalid.1 hvalid.2

/-- The text fits the limit, or no character of it is open where it is cut. -/
def Clean (input : BodyInput) : Prop :=
  input.cap < input.fullText.length → CleanAt input.fullText (input.cap - truncatedMarker.length)

/-- A body is well formed exactly when its text is not cut inside a character. -/
theorem valid_body_iff {input : BodyInput} (h : input.ValidStrings) {body : Bytes}
    (hbody : input.format = some body) : Valid body ↔ input.Clean := by
  have htext := valid_fullText h
  have hm : IsAscii truncatedMarker := by decide
  obtain rfl := Option.some.inj (input.format_eq.symm.trans hbody)
  rcases Nat.lt_or_ge input.cap input.fullText.length with hlong | hfits
  · rw [capped_of_lt hlong, Clean, ← valid_take_iff_cleanAt htext]
    constructor
    · exact fun hv _ => (accepts_split hv fun b hb => hm b (List.mem_of_mem_head? hb)).1
    · exact fun hv => valid_append (hv hlong) (valid_of_isAscii hm)
  · rw [capped_of_le hfits]
    exact iff_of_true htext fun hlong => absurd hlong (Nat.not_lt.mpr hfits)

end BodyInput

end Kasli.Tools
