import Kasli.Tools.CountedRows
import Kasli.Tools.JournalScope
import Kasli.Tools.MountInfo

/-! How many lines the records of mounts and of journal entries take. Neither tool escapes what it
writes: a newline that is decoded from a mount or from an entry, and is not redacted, ends a
line. A record is one line exactly when it has no such newline. -/

namespace Kasli.Tools

open Core

/-- Lines around rows of any text. -/
theorem lines_rows {header closer : List Bytes} (hheader : ∀ s ∈ header, newline ∉ s)
    (hcloser : ∀ s ∈ closer, newline ∉ s) (rows : List Bytes) :
    lines ((header ++ rows ++ closer).flatMap line) = header ++ rows.flatMap lines ++
      closer ++ [[]] := by
  rw [lines_flatMap_lines, List.flatMap_append, List.flatMap_append,
    flatMap_lines_of_notMem hheader, flatMap_lines_of_notMem hcloser]

/-- A text that is plain has no end of a line. -/
theorem newline_notMem_of_isPlain {s : Bytes} (h : IsPlain s) : newline ∉ s :=
  kept_notMem_newline.plain h

/-! ### Mounts -/

namespace Disk

/-- A row without the end of its line. -/
def rowText (row : DiskUsageRow) : Bytes :=
  ascii "mount_point=" ++ redactLikelySecret row.mountPoint ++
    ascii " fs_type=" ++ redactLikelySecret row.fsType ++
    ascii " source=" ++ redactLikelySecret row.source ++
    ascii " capacity_bytes=" ++ decimal row.capacityBytes ++
    ascii " free_bytes=" ++ decimal row.freeBytes ++
    ascii " available_bytes=" ++ decimal row.availableBytes ++
    ascii " used_percent=" ++ decimalInt row.usedPercent

theorem formatDiskUsageRow_eq (row : DiskUsageRow) :
    formatDiskUsageRow row = line (rowText row) := rfl

theorem newline_notMem_rowText (row : DiskUsageRow) :
    newline ∉ rowText row ↔ ∀ s ∈ row.strings, newline ∉ redactLikelySecret s := by
  have hplain := @newline_notMem_of_isPlain
  have hdecimal := fun n => hplain (isPlain_decimal n)
  have hpercent := hplain (isPlain_decimalInt row.usedPercent)
  have hnames : ∀ name ∈ ["mount_point=", " fs_type=", " source=",
    " capacity_bytes=", " free_bytes=",
      " available_bytes=", " used_percent="].map ascii, newline ∉ name := by decide
  simp only [List.map_cons, List.map_nil, List.forall_mem_cons] at hnames
  obtain ⟨h₁, h₂, h₃, h₄, h₅, h₆, h₇, -⟩ := hnames
  simp only [rowText, DiskUsageRow.strings, List.mem_append, h₁, h₂, h₃, h₄, h₅, h₆, h₇, hdecimal,
    hpercent, or_false, false_or, List.forall_mem_cons, not_or, List.not_mem_nil, false_imp_iff,
    implies_true, and_true, and_assoc]

/-- The lines before the rows. -/
def headerLines (rows : ℕ) : List Bytes :=
  [ascii "disk_mounts_count=" ++ decimal rows] ++
    if rows = 0 then [ascii "no_disk_mounts=true"] else []

/-- The line after them. -/
def closerLines (hasMoreRows : Bool) : List Bytes :=
  if hasMoreRows then [ascii "truncated=true"] else []

theorem newline_notMem_headerLines (rows : ℕ) : ∀ s ∈ headerLines rows, newline ∉ s := by
  have hcount := (CountedList.diskMounts []).newline_notMem_head rows
  have hnone := (CountedList.diskMounts []).newline_notMem_noRows
  unfold headerLines
  split_ifs
  · simp only [List.forall_mem_append, List.forall_mem_singleton]
    exact ⟨hcount, hnone⟩
  · rw [List.append_nil, List.forall_mem_singleton]
    exact hcount

theorem newline_notMem_closerLines (hasMoreRows : Bool) :
    ∀ s ∈ closerLines hasMoreRows, newline ∉ s := by
  cases hasMoreRows
  · simp [closerLines]
  · decide

theorem fullText_diskUsage (rows : List DiskUsageRow) (hasMoreRows : Bool) :
    (BodyInput.diskUsage rows hasMoreRows).fullText =
      (headerLines rows.length ++ rows.map rowText ++ closerLines hasMoreRows).flatMap line := by
  have hrows : (rows.map formatDiskUsageRow).flatten = (rows.map rowText).flatMap line := by
    rw [funext formatDiskUsageRow_eq, List.flatMap_map, List.flatMap_def]
  have hheader : (diskUsageHeader rows.length).flatten =
      (headerLines rows.length).flatMap line := by
    unfold diskUsageHeader countHeader headerLines
    split_ifs <;> rfl
  have hcloser : (if hasMoreRows then truncatedMarker else []) =
      (closerLines hasMoreRows).flatMap line := by
    cases hasMoreRows <;> rfl
  rw [BodyInput.fullText, Body.rowsText, hrows, hheader, hcloser, List.flatMap_append,
    List.flatMap_append]

/-- The lines of a body of disk usage that fits. -/
theorem lines_diskUsage (rows : List DiskUsageRow) (hasMoreRows : Bool) :
    lines (BodyInput.diskUsage rows hasMoreRows).fullText =
      headerLines rows.length ++ (rows.map rowText).flatMap lines ++
        closerLines hasMoreRows ++ [[]] := by
  rw [fullText_diskUsage, lines_rows (newline_notMem_headerLines _) (newline_notMem_closerLines _)]

/-- The response to a query when all rows fit. -/
theorem diskUsageCall_eq {result : DiskUsageResult} (hok : result.ok = true)
    (hfits : (BodyInput.diskUsage result.rows result.hasMoreRows).fullText.length ≤ maxBodyBytes)
    (time : Bytes)
    (request : ToolRequest) : (diskUsageCall result time request).map firstEvidenceBody =
      some (BodyInput.diskUsage result.rows result.hasMoreRows).fullText := by
  have hbody : formatDiskUsageBody result.rows result.hasMoreRows =
      some (BodyInput.diskUsage result.rows result.hasMoreRows).fullText :=
    (BodyInput.diskUsage result.rows result.hasMoreRows).format_eq.trans
      (congrArg some (capped_of_le hfits))
  unfold diskUsageCall
  simp only [hok, hbody, Bool.not_true, Bool.false_eq_true, if_false]
  rfl

end Disk

/-! ### Journal entries -/

namespace Journal

/-- The line of an entry without its end. -/
def entryText (entry : Json) : Bytes :=
  jsonStringValue entry (ascii "PRIORITY") ++ ascii " " ++
    redactLikelySecret (jsonStringValue entry (ascii "MESSAGE"))

theorem fixtureLine_eq (entry : Json) : fixtureLine entry = line (entryText entry) := rfl

/-- No newline of the entry is written. -/
def OneLineEntry (entry : Json) : Prop :=
  newline ∉ jsonStringValue entry (ascii "PRIORITY") ∧
    newline ∉ redactLikelySecret (jsonStringValue entry (ascii "MESSAGE"))

theorem newline_notMem_entryText (entry : Json) : newline ∉ entryText entry ↔
    OneLineEntry entry := by
  have hspace : newline ∉ ascii " " := by decide
  simp only [entryText, List.mem_append, hspace, or_false, not_or]
  rfl

/-- The line after the entries. -/
def closingLines (n invalid : ℕ) : List Bytes :=
  if n > maxEntries then [ascii "truncated=true"]
  else if invalid > 0 then [ascii "skipped_invalid_entries=" ++ decimal invalid] else []

theorem closing_eq (n invalid : ℕ) : closing n invalid = (closingLines n invalid).flatMap line := by
  unfold closing closingLines
  split_ifs
  · rfl
  · rw [List.flatMap_singleton]
    rfl
  · rfl

theorem newline_notMem_closingLines (n invalid : ℕ) :
    ∀ s ∈ closingLines n invalid, newline ∉ s := by
  have hdecimal := newline_notMem_of_isPlain (isPlain_decimal invalid)
  have hskipped : newline ∉ ascii "skipped_invalid_entries=" := by decide
  unfold closingLines
  split_ifs
  · decide
  · simp only [List.forall_mem_singleton, List.mem_append, not_or]
    exact ⟨hskipped, hdecimal⟩
  · simp

/-- The lines of a body of the journal that fits. -/
theorem lines_scopedText (parse : Bytes → Option Json) (unit : Bytes) (input : List Bytes) :
    lines (scopedText parse unit input) =
      (((matching parse unit input).take maxEntries).map entryText).flatMap lines ++
        closingLines (matching parse unit input).length (invalid parse input) ++ [[]] := by
  have hentries : ((matching parse unit input).take maxEntries).flatMap fixtureLine =
      (((matching parse unit input).take maxEntries).map entryText).flatMap line := by
    rw [funext fixtureLine_eq, List.flatMap_map]
  have hlines := @lines_rows [] _ (by simp) (newline_notMem_closingLines
    (matching parse unit input).length (invalid parse input))
      (((matching parse unit input).take maxEntries).map entryText)
  rw [List.nil_append, List.flatMap_append, ← closing_eq, ← hentries] at hlines
  exact hlines

end Journal

/-! ### Both tools -/

/-- Between the fixed lines of a body that fits stand the lines of the mounts, or of the first
fifty entries. They are one for each exactly when no newline of them is written. -/
theorem evidence_lines_iff :
    (∀ (quotient : ℕ → ℕ → Int) (sorting : Sorting Disk.byMountPoint) (space : ℕ → Bytes →
      Option Disk.SpaceInfo)
        (text time : Bytes) (request : ToolRequest) (result : Disk.DiskUsageResult),
      Disk.diskUsageProvider quotient sorting space (some text) = result →
      (BodyInput.diskUsage result.rows result.hasMoreRows).fullText.length ≤ Disk.maxBodyBytes →
      ∃ body, (Disk.diskUsageCall result time request).map firstEvidenceBody = some body ∧
        lines body = Disk.headerLines result.rows.length ++
          (result.rows.map Disk.rowText).flatMap lines ++
          Disk.closerLines result.hasMoreRows ++ [[]] ∧
        (((result.rows.map Disk.rowText).flatMap lines).length = result.rows.length ↔
          ∀ row ∈ result.rows, ∀ s ∈ row.strings, newline ∉ redactLikelySecret s)) ∧
    ∀ (parse : Bytes → Option Json) (path text time unit : Bytes) (request : ToolRequest)
      (entries : List Json), Systemd.unitParam request = unit → isBlank unit = false →
        Journal.matching parse unit (getLines text) = entries →
      (Journal.scopedText parse unit (getLines text)).length ≤ Journal.maxBodyBytes →
      ∃ body, (Journal.journalFixtureCall parse path (some text) time request).map
        firstEvidenceBody = some body ∧
        lines body = ((entries.take Journal.maxEntries).map Journal.entryText).flatMap lines ++
          Journal.closingLines entries.length (Journal.invalid parse (getLines text)) ++ [[]] ∧
        ((((entries.take Journal.maxEntries).map Journal.entryText).flatMap lines).length =
            min Journal.maxEntries entries.length ↔
          ∀ entry ∈ entries.take Journal.maxEntries, Journal.OneLineEntry entry) := by
  constructor
  · rintro quotient sorting space text time request result rfl hfits
    refine ⟨_, Disk.diskUsageCall_eq rfl hfits time request, Disk.lines_diskUsage _ _, ?_⟩
    have hlength := (length_flatMap_lines
      ((Disk.diskUsageProvider quotient sorting space (some text)).rows.map Disk.rowText)).2
    rw [List.length_map, List.forall_mem_map] at hlength
    rw [hlength]
    simp only [Disk.newline_notMem_rowText]
  · rintro parse path text time unit request entries rfl hunit rfl hfits
    refine ⟨Journal.scopedText parse (Systemd.unitParam request) (getLines text), ?_,
      Journal.lines_scopedText _ _ _, ?_⟩
    · rw [Journal.journalFixtureCall_eq parse path time hunit, capped_of_le hfits]
      rfl
    · have hlength := (length_flatMap_lines
        (((Journal.matching parse (Systemd.unitParam request) (getLines text)).take
        Journal.maxEntries).map Journal.entryText)).2
      rw [List.length_map, List.length_take, List.forall_mem_map] at hlength
      rw [hlength]
      simp only [Journal.newline_notMem_entryText]

/-! ### A mount and an entry of two lines -/

/-- A mount at `point`, on a disk that is half full. -/
def mountAt (point : Bytes) :
    Bytes := ascii "36 25 8:1 / " ++ point ++ ascii " rw - ext4 /dev/sda1 rw\n"

def halfFull : ℕ → Bytes → Option Disk.SpaceInfo :=
  fun _ _ => some { capacity := 100, free := 50, available := 50 }

def mountResult (point : Bytes) : Disk.DiskUsageResult :=
  Disk.diskUsageProvider (fun used capacity => used * 100 / capacity) Disk.mountSorting halfFull
    (some (mountAt point))

/-- An entry with a message of two lines. -/
def twoLineEntry : Json :=
  .object [(ascii "MESSAGE", .string (ascii "a\nb")),
    (ascii "_SYSTEMD_UNIT", .string (ascii "ssh.service"))]

def twoLineText : Bytes := ascii "\x7b\"MESSAGE\":\"a\\nb\",\"_SYSTEMD_UNIT\":\"ssh.service\"\x7d"

/-- A parser that knows that entry. -/
def twoLineParser (text : Bytes) : Option Json :=
  if text = twoLineText then some twoLineEntry else none

/-- A mount of one line and an entry of two. -/
theorem evidence_lines_iff_one :
    (∃ body, (Disk.diskUsageCall (mountResult (ascii "/m")) [] Journal.sshRequest).map
      firstEvidenceBody = some body ∧
      lines body = Disk.headerLines (mountResult (ascii "/m")).rows.length ++
        ((mountResult (ascii "/m")).rows.map Disk.rowText).flatMap lines ++
        Disk.closerLines (mountResult (ascii "/m")).hasMoreRows ++ [[]] ∧
      ((((mountResult (ascii "/m")).rows.map Disk.rowText).flatMap lines).length =
          (mountResult (ascii "/m")).rows.length ↔
        ∀ row ∈ (mountResult (ascii "/m")).rows, ∀ s ∈ row.strings,
          newline ∉ redactLikelySecret s)) ∧
    ∃ body, (Journal.journalFixtureCall twoLineParser (ascii "journal.jsonl") (some twoLineText)
      [] Journal.sshRequest).map firstEvidenceBody = some body ∧
      lines body = (([twoLineEntry].take Journal.maxEntries).map Journal.entryText).flatMap lines ++
        Journal.closingLines 1 (Journal.invalid twoLineParser (getLines twoLineText)) ++ [[]] ∧
      (((([twoLineEntry].take Journal.maxEntries).map Journal.entryText).flatMap lines).length =
          min Journal.maxEntries 1 ↔
        ∀ entry ∈ [twoLineEntry].take Journal.maxEntries, Journal.OneLineEntry entry) :=
  ⟨evidence_lines_iff.1 _ Disk.mountSorting halfFull (mountAt (ascii "/m")) [] Journal.sshRequest _
    rfl (by decide +kernel), evidence_lines_iff.2 twoLineParser (ascii "journal.jsonl") twoLineText
      [] (ascii "ssh.service") Journal.sshRequest [twoLineEntry] rfl (by decide) (by rfl)
      (by decide +kernel)⟩

/-- A mount point with a newline that looks like another row. -/
def forgedPoint : Bytes := ascii "/m\\012mount_point=/x"

/-- A mount takes two lines, and so does an entry. -/
theorem row_forged :
    (¬ ∀ (quotient : ℕ → ℕ → Int) (sorting : Sorting Disk.byMountPoint) (space : ℕ → Bytes →
      Option Disk.SpaceInfo)
        (text time : Bytes) (request : ToolRequest) (result : Disk.DiskUsageResult),
      Disk.diskUsageProvider quotient sorting space (some text) = result →
      (BodyInput.diskUsage result.rows result.hasMoreRows).fullText.length ≤ Disk.maxBodyBytes →
      ∃ body rows, (Disk.diskUsageCall result time request).map firstEvidenceBody = some body ∧
        lines body = Disk.headerLines result.rows.length ++ rows ++
          Disk.closerLines result.hasMoreRows ++ [[]] ∧
        rows.length = result.rows.length) ∧
    ¬ ∀ (parse : Bytes → Option Json) (path text time unit : Bytes) (request : ToolRequest)
      (entries : List Json), Systemd.unitParam request = unit → isBlank unit = false →
        Journal.matching parse unit (getLines text) = entries →
      (Journal.scopedText parse unit (getLines text)).length ≤ Journal.maxBodyBytes →
      ∃ body rows, (Journal.journalFixtureCall parse path (some text) time request).map
        firstEvidenceBody = some body ∧
        lines body = rows ++ Journal.closingLines entries.length
          (Journal.invalid parse (getLines text)) ++ [[]] ∧
        rows.length = entries.length := by
  constructor
  · intro h
    have hfits : (BodyInput.diskUsage (mountResult forgedPoint).rows
        (mountResult forgedPoint).hasMoreRows).fullText.length ≤
          Disk.maxBodyBytes := by decide +kernel
    have hcount : (lines (BodyInput.diskUsage (mountResult forgedPoint).rows
        (mountResult forgedPoint).hasMoreRows).fullText).length = 4 := by decide +kernel
    have hheader : (Disk.headerLines (mountResult forgedPoint).rows.length).length =
      1 := by decide +kernel
    have hcloser : (Disk.closerLines (mountResult forgedPoint).hasMoreRows).length =
      0 := by decide +kernel
    have hrows : (mountResult forgedPoint).rows.length = 1 := by decide +kernel
    obtain ⟨body, rows, hbody, hlines, hlength⟩ :=
      h _ Disk.mountSorting halfFull (mountAt forgedPoint) [] Journal.sshRequest
      (mountResult forgedPoint) rfl hfits
    rw [Disk.diskUsageCall_eq rfl hfits] at hbody
    rw [← Option.some.inj hbody] at hlines
    have hlen := hcount.symm.trans (congrArg List.length hlines)
    simp only [List.length_append, List.length_singleton] at hlen
    omega
  · intro h
    have hbody : (Journal.journalFixtureCall twoLineParser (ascii "journal.jsonl")
      (some twoLineText) [] Journal.sshRequest).map
        firstEvidenceBody = some (ascii " a\nb\n") := by decide +kernel
    have hcount : (lines (ascii " a\nb\n")).length = 3 := by decide +kernel
    have hclosing : (Journal.closingLines [twoLineEntry].length
        (Journal.invalid twoLineParser (getLines twoLineText))).length = 0 := by decide +kernel
    obtain ⟨body, rows, hcall, hlines, hlength⟩ :=
      h twoLineParser (ascii "journal.jsonl") twoLineText [] (ascii "ssh.service")
      Journal.sshRequest [twoLineEntry] rfl (by decide) (by rfl) (by decide +kernel)
    rw [hbody] at hcall
    rw [← Option.some.inj hcall] at hlines
    have hlen := hcount.symm.trans (congrArg List.length hlines)
    rw [List.length_append, List.length_append, hclosing, hlength] at hlen
    exact absurd hlen (by decide)

end Kasli.Tools
