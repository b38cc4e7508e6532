import Kasli.Tools.Disk
import Kasli.Tools.Hardware
import Kasli.Tools.Journal
import Kasli.Tools.Network
import Kasli.Tools.Package
import Kasli.Tools.ServiceDiagnose

/-! What the formatters of all tools return. A formatter that stops at a cut and one that
goes on return the same: the text it would have written without a cap, within its cap. -/

namespace Kasli.Tools

open Core

/-- `body` is `text`, or its beginning and the marker when `text` is too long. -/
def BoundedForm (cap : ℕ) (text body : Bytes) : Prop :=
  (text.length ≤ cap → body = text) ∧
    (cap < text.length → body = text.take (cap - 15) ++ truncatedMarker ∧ body.length = cap)

theorem boundedForm_capped {cap : ℕ} (hcap : truncatedMarker.length ≤ cap) (text : Bytes) :
    BoundedForm cap text (capped truncatedMarker cap text) :=
  ⟨capped_of_le, fun h => ⟨capped_of_lt h, length_capped_of_lt hcap h⟩⟩

theorem BoundedForm.length_le {cap : ℕ} {text body : Bytes} (h : BoundedForm cap text body) :
    body.length ≤ cap := by
  rcases Nat.lt_or_ge cap text.length with hlt | hle
  · exact Nat.le_of_eq (h.2 hlt).2
  · rwa [h.1 hle]

/-! ### The diagnosis -/

/-- A line of the diagnosis as it is appended. -/
def diagnosisText (line : Bytes × Bytes) :
    Bytes := line.1 ++ ascii "=" ++ redactLikelySecret line.2 ++ ascii "\n"

/-- The body of the diagnosis with its operations checked. -/
def formatDiagnosisBody (unit : Bytes) (status journal : ToolResponse) : Option Bytes := do
  return (← Body.appendAll maxDiagnosisBodyBytes .empty
    ((diagnosisLines unit status journal).map diagnosisText)).text

/-- On a body within the limit the checks change nothing. -/
theorem appendBounded_diagnosis (body : DiagnosisBody) (text : Bytes) :
    Body.appendBounded maxDiagnosisBodyBytes ⟨body.text, body.truncated⟩ text =
      some ⟨(appendBounded body text).text, (appendBounded body text).truncated⟩ := by
  have hm : truncatedMarker.length ≤ maxDiagnosisBodyBytes := by decide
  by_cases h : body.text.length + text.length ≤ maxDiagnosisBodyBytes
  · rw [Body.appendBounded, if_pos h, appendBounded, dif_pos h]
  · have hbounded := body.bounded
    rw [Body.appendBounded_of_lt hm hbounded (by simp only; omega), appendBounded, dif_neg h]
    congr 3
    unfold makeRoom
    dsimp only
    split_ifs with hlong hfull
    · have htake : maxDiagnosisBodyBytes - truncatedMarker.length =
          body.text.length + (maxDiagnosisBodyBytes - body.text.length -
            truncatedMarker.length) := by omega
      rw [htake, List.take_length_add_append]
    · rw [List.take_append_of_le_length (by omega)]
    · rw [List.take_append_of_le_length (by omega), List.take_of_length_le (by omega)]

theorem appendAll_diagnosis (body : DiagnosisBody) (lines : List (Bytes × Bytes)) :
    Body.appendAll maxDiagnosisBodyBytes ⟨body.text, body.truncated⟩ (lines.map diagnosisText) =
      some ⟨(lines.foldl appendLine body).text, (lines.foldl appendLine body).truncated⟩ := by
  induction lines generalizing body with
  | nil => rfl
  | cons line lines ih =>
    rw [List.map_cons, Body.appendAll, List.foldlM_cons, appendBounded_diagnosis,
      Option.bind_eq_bind, Option.bind_some, List.foldl_cons]
    exact ih (appendLine body line)

/-- The first record of a diagnosis has the checked body. -/
theorem formatDiagnosisBody_eq (request : ToolRequest) (unit timestamp : Bytes)
    (status journal : ToolResponse) :
    (diagnose request unit timestamp status journal).evidence.head?.map Evidence.body =
      formatDiagnosisBody unit status journal := by
  rw [formatDiagnosisBody, show Body.empty =
    ⟨DiagnosisBody.empty.text, DiagnosisBody.empty.truncated⟩ from rfl, appendAll_diagnosis]
  rfl

/-! ### The journal -/

namespace Journal

/-- The text of the live journal from the entry with number `n` on. -/
def liveText (n : ℕ) : List JournalEntry → Bytes
  | [] => []
  | entry :: rest => if n ≥ maxEntries then truncatedMarker else liveLine entry ++
      liveText (n + 1) rest

/-- The text of a fixture from a line on, with `n` entries and `skipped` invalid lines before it. -/
def fixtureText (parse : Bytes → Option Json) (unit : Bytes) (n skipped : ℕ) : List Bytes → Bytes
  | [] => if skipped > 0 then skippedLine skipped else []
  | line :: rest =>
    match entryOf parse line with
    | none => fixtureText parse unit n (skipped + 1) rest
    | some entry =>
      if jsonStringValue entry (ascii "_SYSTEMD_UNIT") ≠ unit then fixtureText parse
        unit n skipped rest
      else if n ≥ maxEntries then truncatedMarker
      else fixtureLine entry ++ fixtureText parse unit (n + 1) skipped rest

theorem marker_le : truncatedMarker.length ≤ maxBodyBytes := by decide

/-- The explicit marker is part of the text. -/
theorem appendTruncationMarker_ofText (text : Bytes) :
    appendTruncationMarker (Body.ofText maxBodyBytes text) =
    some ⟨capped truncatedMarker maxBodyBytes (text ++ truncatedMarker), true⟩ := by
  unfold appendTruncationMarker
  rcases Nat.lt_or_ge maxBodyBytes text.length with hcut | hfits
  · rw [capped_append_of_lt hcut, capped_of_lt hcut, Body.ofText_of_lt hcut]
    rfl
  · have htruncated : (Body.ofText maxBodyBytes text).truncated =
      false := by rw [Body.ofText_of_le hfits]
    rw [htruncated, Body.appendBounded_ofText marker_le]
    rfl

/-- The loop over the live journal fails, or leaves the text within the cap. -/
theorem liveLoop_ofText (fails : Bool) (text : Bytes) (n : ℕ) (read : List JournalEntry) :
    ∃ result, liveLoop fails (Body.ofText maxBodyBytes text) n read = some result ∧
      (∀ body, result = some body →
        body.text = capped truncatedMarker maxBodyBytes (text ++ liveText n read)) ∧
      (result = none → fails = true) := by
  induction read generalizing text n with
  | nil =>
    refine ⟨_, rfl, ?_, ?_⟩
    · intro body hbody
      cases fails with
      | true => cases hbody
      | false =>
        obtain rfl := Option.some.inj hbody
        rw [liveText, List.append_nil]
        rfl
    · cases fails with
      | true => exact fun _ => rfl
      | false => exact fun h => nomatch h
  | cons entry rest ih =>
    rw [liveLoop, liveText]
    by_cases hn : n ≥ maxEntries
    · rw [if_pos hn, if_pos hn, appendTruncationMarker_ofText]
      refine ⟨_, rfl, ?_, nofun⟩
      intro body hbody
      rw [← Option.some.inj hbody]
    · rw [if_neg hn, if_neg hn, Body.appendBounded_ofText marker_le, Option.bind_eq_bind,
        Option.bind_some, ← List.append_assoc]
      rcases Nat.lt_or_ge maxBodyBytes (text ++ liveLine entry).length with hcut | hfits
      · -- the entries that are left out change nothing
        have htruncated : (Body.ofText maxBodyBytes (text ++ liveLine entry)).truncated = true := by
          rw [Body.ofText_of_lt hcut]
        rw [htruncated, capped_append_of_lt hcut]
        refine ⟨_, rfl, ?_, nofun⟩
        intro body hbody
        rw [← Option.some.inj hbody]
        rfl
      · have htruncated : (Body.ofText maxBodyBytes (text ++ liveLine entry)).truncated =
            false := by
          rw [Body.ofText_of_le hfits]
        rw [htruncated]
        exact ih (text ++ liveLine entry) (n + 1)

/-- What happens after the loop over a fixture. -/
def finishFixture (result : Body × ℕ) : Option Bytes :=
  if result.2 > 0 ∧ !result.1.truncated then do
    return (← Body.appendBounded maxBodyBytes result.1 (skippedLine result.2)).text
  else some result.1.text

theorem finishFixture_of_truncated {body : Body} (h : body.truncated = true) (skipped : ℕ) :
    finishFixture (body, skipped) = some body.text := by
  simp [finishFixture, h]

section

variable (parse : Bytes → Option Json) (unit : Bytes)

theorem fixtureBody_eq_finish (input : List Bytes) :
    fixtureBody parse unit input = fixtureLoop parse unit .empty 0 0 input >>= finishFixture := by
  rfl

/-- The loop over a fixture leaves the text within the cap. -/
theorem fixtureLoop_ofText (text : Bytes) (n skipped : ℕ) (input : List Bytes) :
    fixtureLoop parse unit (Body.ofText maxBodyBytes text) n skipped input >>= finishFixture =
      some (capped truncatedMarker maxBodyBytes (text ++
        fixtureText parse unit n skipped input)) := by
  induction input generalizing text n skipped with
  | nil =>
    rw [fixtureLoop, fixtureText, Option.bind_eq_bind, Option.bind_some]
    rcases Nat.lt_or_ge maxBodyBytes text.length with hcut | hfits
    · rw [capped_append_of_lt hcut, finishFixture_of_truncated (by rw [Body.ofText_of_lt hcut])]
      rfl
    · have htruncated : (Body.ofText maxBodyBytes text).truncated =
        false := by rw [Body.ofText_of_le hfits]
      unfold finishFixture
      by_cases hs : skipped > 0
      · rw [if_pos ⟨hs, by rw [htruncated]; rfl⟩, if_pos hs, Body.appendBounded_ofText marker_le]
        rfl
      · rw [if_neg fun h => hs h.1, if_neg hs, List.append_nil]
        rfl
  | cons line rest ih =>
    rw [fixtureLoop, fixtureText]
    cases entryOf parse line with
    | none => exact ih text n (skipped + 1)
    | some entry =>
      dsimp only
      by_cases hunit : jsonStringValue entry (ascii "_SYSTEMD_UNIT") ≠ unit
      · rw [if_pos hunit, if_pos hunit]
        exact ih text n skipped
      rw [if_neg hunit, if_neg hunit]
      by_cases hn : n ≥ maxEntries
      · rw [if_pos hn, if_pos hn, appendTruncationMarker_ofText]
        exact finishFixture_of_truncated rfl skipped
      · rw [if_neg hn, if_neg hn, Body.appendBounded_ofText marker_le, ← List.append_assoc]
        simp only [Option.bind_eq_bind, Option.bind_some]
        rcases Nat.lt_or_ge maxBodyBytes (text ++ fixtureLine entry).length with hcut | hfits
        · have htruncated : (Body.ofText maxBodyBytes (text ++ fixtureLine entry)).truncated =
              true := by
            rw [Body.ofText_of_lt hcut]
          rw [if_pos htruncated, capped_append_of_lt hcut]
          exact finishFixture_of_truncated htruncated skipped
        · have htruncated : (Body.ofText maxBodyBytes (text ++ fixtureLine entry)).truncated =
              false := by
            rw [Body.ofText_of_le hfits]
          rw [htruncated]
          exact ih (text ++ fixtureLine entry) (n + 1) skipped

end

end Journal

/-! ### All formatters -/

/-- The caps that the tools use. -/
def bodyCaps : List ℕ := [64 * 1024, 16 * 1024, 12 * 1024]

theorem marker_le_of_mem {cap : ℕ} (h : cap ∈ bodyCaps) : truncatedMarker.length ≤ cap := by
  revert cap
  decide

/-- What the body of a tool is made of. -/
inductive BodyInput
  | unitsList (rows : List Systemd.SystemdUnitListRow) (hasMoreRows : Bool)
  | failedServices (rows : List Systemd.FailedServiceRow) (hasMoreRows : Bool)
  | enabledServices (rows : List Systemd.EnabledServiceRow) (hasMoreRows : Bool)
  | unitStatus (evidence : Systemd.SystemdUnitStatusEvidence)
  | diskUsage (rows : List Disk.DiskUsageRow) (hasMoreRows : Bool)
  | networkSummary (rows : List Network.NetworkInterfaceRow) (hasMoreRows : Bool)
  | powerStatus (rows : List Power.PowerSupplyRow) (hasMoreRows : Bool)
  | hardwareSummary (summary : Hardware.HardwareSummary)
  | packageChanges (rows : List Package.PackageChangeRow) (hasMoreRows : Bool)
  | packageList (rows : List Package.PackageListRow) (hasMoreRows : Bool)
  | journalFixture (parse : Bytes → Option Json) (unit : Bytes) (input : List Bytes)
  | liveJournal (read : List Journal.JournalEntry)
  | diagnosis (unit : Bytes) (status journal : ToolResponse)

namespace BodyInput

def cap : BodyInput → ℕ
  | .journalFixture _ _ _ => Journal.maxBodyBytes
  | .liveJournal _ => Journal.maxBodyBytes
  | .diagnosis _ _ _ => maxDiagnosisBodyBytes
  | _ => 64 * 1024

/-- The body as its formatter makes it; the loop over the live journal is one whose reading does
not fail. -/
def format : BodyInput → Option Bytes
  | .unitsList rows more => Systemd.formatSystemdUnitsListBody rows more
  | .failedServices rows more => Systemd.formatFailedServicesBody rows more
  | .enabledServices rows more => Systemd.formatEnabledServicesBody rows more
  | .unitStatus evidence => Systemd.formatSystemdUnitStatusBody evidence
  | .diskUsage rows more => Disk.formatDiskUsageBody rows more
  | .networkSummary rows more => Network.formatNetworkSummaryBody rows more
  | .powerStatus rows more => Power.formatPowerStatusBody rows more
  | .hardwareSummary summary => Hardware.formatHardwareSummaryBody summary
  | .packageChanges rows more => Package.formatPackageRecentChangesBody rows more
  | .packageList rows more => Package.formatPackageListBody rows more
  | .journalFixture parse unit input => Journal.fixtureBody parse unit input
  | .liveJournal read => do return (← (← Journal.liveLoop false .empty 0 read)).text
  | .diagnosis unit status journal => formatDiagnosisBody unit status journal

/-- The text without a cap. -/
def fullText : BodyInput → Bytes
  | .unitsList rows more => Body.rowsText [] (rows.map Systemd.formatUnitRow) more
  | .failedServices rows more =>
    Body.rowsText (Systemd.failedServicesHeader rows.length)
      (rows.map Systemd.formatFailedServiceRow) more
  | .enabledServices rows more =>
    Body.rowsText (Systemd.enabledServicesHeader rows.length)
      (rows.map Systemd.formatEnabledServiceRow) more
  | .unitStatus evidence => (Systemd.unitStatusLines evidence).flatten
  | .diskUsage rows more => Body.rowsText (Disk.diskUsageHeader rows.length)
      (rows.map Disk.formatDiskUsageRow) more
  | .networkSummary rows more =>
    Body.rowsText (Network.networkSummaryHeader rows.length)
      (rows.map Network.formatNetworkRow) more
  | .powerStatus rows more =>
    Body.rowsText (Power.powerStatusHeader rows.length) (rows.map Power.formatPowerRow) more
  | .hardwareSummary summary =>
    Body.rowsText (Hardware.summaryLines summary) (summary.gpuDevices.map Hardware.formatGpuRow)
      summary.hasMoreGpuDevices
  | .packageChanges rows more =>
    Body.rowsText (Package.packageChangesHeader rows.length)
      (rows.map Package.formatPackageChangeRow) more
  | .packageList rows more =>
    Body.rowsText (Package.packagesHeader rows.length) (rows.map Package.formatPackageListRow) more
  | .journalFixture parse unit input => Journal.fixtureText parse unit 0 0 input
  | .liveJournal read => Journal.liveText 0 read
  | .diagnosis unit status journal =>
      ((diagnosisLines unit status journal).map diagnosisText).flatten

theorem cap_mem (input : BodyInput) : input.cap ∈ bodyCaps := by
  cases input <;> simp [cap, bodyCaps, Journal.maxBodyBytes, maxDiagnosisBodyBytes]

theorem marker_le_cap (input : BodyInput) : truncatedMarker.length ≤ input.cap :=
  marker_le_of_mem input.cap_mem

/-- Appending lines without looking whether the body was cut. -/
theorem appendAll_text {cap : ℕ} (hcap : truncatedMarker.length ≤ cap) (texts : List Bytes) :
    (do return (← Body.appendAll cap .empty texts).text : Option Bytes) =
      some (capped truncatedMarker cap texts.flatten) := by
  rw [← Body.ofText_nil cap, Body.appendAll_ofText hcap, List.nil_append]
  rfl

theorem format_liveJournal (read : List Journal.JournalEntry) :
    (BodyInput.liveJournal read).format =
    some (capped truncatedMarker Journal.maxBodyBytes (Journal.liveText 0 read)) := by
  obtain ⟨result, hloop, htext, hfails⟩ := Journal.liveLoop_ofText false [] 0 read
  rw [Body.ofText_nil] at hloop
  cases result with
  | none => exact absurd (hfails rfl) (by decide)
  | some body =>
    rw [format, hloop, ← List.nil_append (Journal.liveText 0 read), ← htext body rfl]
    rfl

/-- Every formatter returns its whole text within its cap, and nothing in it goes out of range. -/
theorem format_eq (input : BodyInput) :
    input.format = some (capped truncatedMarker input.cap input.fullText) := by
  have hcap := input.marker_le_cap
  cases input with
  | unitsList rows more => exact Body.formatRows_eq hcap _ _ _
  | failedServices rows more => exact Body.formatRows_eq hcap _ _ _
  | enabledServices rows more => exact Body.formatRows_eq hcap _ _ _
  | unitStatus evidence => exact appendAll_text hcap _
  | diskUsage rows more => exact Body.formatRows_eq hcap _ _ _
  | networkSummary rows more => exact Body.formatRows_eq hcap _ _ _
  | powerStatus rows more => exact Body.formatRows_eq hcap _ _ _
  | hardwareSummary summary => exact Body.formatRows_eq hcap _ _ _
  | packageChanges rows more => exact Body.formatRows_eq hcap _ _ _
  | packageList rows more => exact Body.formatRows_eq hcap _ _ _
  | journalFixture parse unit input =>
    rw [format, Journal.fixtureBody_eq_finish, ← Body.ofText_nil Journal.maxBodyBytes,
      Journal.fixtureLoop_ofText, List.nil_append]
    rfl
  | liveJournal read => exact format_liveJournal read
  | diagnosis unit status journal => exact appendAll_text hcap _

end BodyInput

/-- A body depends on the text that is appended and not on the pieces it comes in, and every
formatter returns that form of its whole text; nothing goes out of range on the way. -/
theorem bodies_segmentation_independent :
    (∀ cap ∈ bodyCaps, ∀ texts : List Bytes, ∃ body, Body.appendAll cap .empty texts = some body ∧
      BoundedForm cap texts.flatten body.text) ∧
    (∀ input : BodyInput, ∃ body, input.format = some body ∧
      BoundedForm input.cap input.fullText body) ∧
    ∀ request unit timestamp status journal,
      (diagnose request unit timestamp status journal).evidence.head?.map Evidence.body =
        (BodyInput.diagnosis unit status journal).format := by
  refine ⟨?_, ?_, formatDiagnosisBody_eq⟩
  · intro cap hmem texts
    have hcap := marker_le_of_mem hmem
    refine ⟨Body.ofText cap texts.flatten, ?_, boundedForm_capped hcap texts.flatten⟩
    rw [← Body.ofText_nil cap, Body.appendAll_ofText hcap, List.nil_append]
  · exact fun input => ⟨_, input.format_eq, boundedForm_capped input.marker_le_cap _⟩

theorem bodies_segmentation_independent_two : ∃ body,
    Body.appendAll (12 * 1024) .empty [ascii "unit=ssh", ascii "\n"] = some body ∧
      BoundedForm (12 * 1024) (ascii "unit=ssh\n") body.text :=
  bodies_segmentation_independent.1 (12 * 1024) (by decide) [ascii "unit=ssh", ascii "\n"]

end Kasli.Tools
