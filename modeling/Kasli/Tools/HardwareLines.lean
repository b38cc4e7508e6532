import Kasli.Text.CutLines
import Kasli.Tools.HardwareProvider

/-! The lines of the body of the hardware summary. The mark of a body that is cut stands on a line
of its own only when the body is cut between two lines. -/

namespace Kasli.Tools.Hardware

open Core

/-! ### The lines of the body -/

/-- The keys and values of the lines before the devices. -/
def summaryFields (summary : HardwareSummary) : List (Bytes × Bytes) :=
  let text (value : Bytes) := redactLikelySecret (unknownIfEmpty value)
  [(ascii "hardware_summary=1", []), (ascii "architecture=", text summary.architecture),
    (ascii "cpu_vendor=", text summary.cpu.vendorId),
    (ascii "cpu_model=", text summary.cpu.modelName),
    (ascii "cpu_logical_processors=", decimal summary.cpu.logicalProcessors),
    (ascii "cpu_physical_cores=", decimal summary.cpu.physicalCores),
    (ascii "memory_total_bytes=", decimal summary.memory.totalBytes),
    (ascii "memory_available_bytes=", decimal summary.memory.availableBytes),
    (ascii "swap_total_bytes=", decimal summary.memory.swapTotalBytes),
    (ascii "system_vendor=", text summary.dmi.systemVendor),
    (ascii "product_name=", text summary.dmi.productName),
    (ascii "product_version=", text summary.dmi.productVersion),
    (ascii "board_vendor=", text summary.dmi.boardVendor),
    (ascii "board_name=", text summary.dmi.boardName),
    (ascii "bios_vendor=", text summary.dmi.biosVendor),
    (ascii "bios_version=", text summary.dmi.biosVersion),
    (ascii "chassis_type=", text summary.dmi.chassisType),
    (ascii "gpu_devices_count=", decimal summary.gpuDevices.length)]

theorem summaryLines_eq (summary : HardwareSummary) :
    summaryLines summary = (summaryFields summary).map fun field => line (field.1 ++ field.2) := by
  rfl

/-- The line of a device without its end. -/
def gpuText (row : GpuDeviceRow) : Bytes :=
  ascii "gpu=name=" ++ redactLikelySecret row.name ++
    ascii " vendor_id=" ++ redactLikelySecret (unknownIfEmpty row.vendorId) ++
    ascii " device_id=" ++ redactLikelySecret (unknownIfEmpty row.deviceId) ++
    ascii " class=" ++ redactLikelySecret (unknownIfEmpty row.classId) ++
    ascii " driver=" ++ redactLikelySecret (unknownIfEmpty row.driver) ++
    ascii " source=" ++ redactLikelySecret (unknownIfEmpty row.source)

theorem formatGpuRow_eq (row : GpuDeviceRow) : formatGpuRow row = line (gpuText row) := rfl

/-- The lines of a body that is not cut, but for the mark. -/
def bodyRows (summary : HardwareSummary) : List Bytes :=
  ((summaryFields summary).map fun field => field.1 ++ field.2) ++ summary.gpuDevices.map gpuText

def bodyLines (summary : HardwareSummary) : List Bytes :=
  bodyRows summary ++ if summary.hasMoreGpuDevices then [ascii "truncated=true"] else []

/-- The text that would be written without a limit. -/
def bodyText (summary : HardwareSummary) : Bytes := (bodyLines summary).flatMap line

theorem formatHardwareSummaryBody_eq (summary : HardwareSummary) :
    formatHardwareSummaryBody summary =
      some (capped truncatedMarker maxBodyBytes (bodyText summary)) := by
  have hmark : (if summary.hasMoreGpuDevices then truncatedMarker else []) =
      (if summary.hasMoreGpuDevices then [ascii "truncated=true"] else []).flatMap line := by
    cases summary.hasMoreGpuDevices with
    | true => rfl
    | false => rfl
  have htext : Body.rowsText (summaryLines summary) (summary.gpuDevices.map formatGpuRow)
      summary.hasMoreGpuDevices = bodyText summary := by
    rw [Body.rowsText, summaryLines_eq, bodyText, bodyLines, bodyRows, List.flatMap_append,
      List.flatMap_append, List.flatMap_map, List.flatMap_map, ← hmark, ← List.flatMap_def,
      ← List.flatMap_def]
    rfl
  rw [formatHardwareSummaryBody, Body.formatRows_eq (by decide), htext]

/-- A line that neither tells the number of processors nor is the mark. -/
def IsOther (row : Bytes) : Prop := row.take 5 ≠ ascii "cpu_l" ∧ row.take 5 ≠ ascii "trunc"

instance (row : Bytes) : Decidable (IsOther row) := inferInstanceAs (Decidable (_ ∧ _))

theorem isOther_field {fields : List (Bytes × Bytes)}
    (h : ∀ key ∈ fields.map Prod.fst, 5 ≤ key.length ∧ IsOther key) :
    ∀ row ∈ fields.map fun field => field.1 ++ field.2, IsOther row := by
  rw [List.forall_mem_map] at h ⊢
  intro field hfield
  obtain ⟨hlength, hother⟩ := h field hfield
  rwa [IsOther, List.take_append_of_le_length hlength]

def countLine (n : ℕ) : Bytes := ascii "cpu_logical_processors=" ++ decimal n

/-- The number of processors is told by the fifth line, and by no other. -/
theorem bodyRows_eq (summary : HardwareSummary) : ∃ first others,
    bodyRows summary = first ++ countLine summary.cpu.logicalProcessors :: others ∧
      first.length = 4 ∧ (∀ row ∈ first, IsOther row) ∧ ∀ row ∈ others, IsOther row := by
  let rows (fields : List (Bytes × Bytes)) := fields.map fun field => field.1 ++ field.2
  have hgpu : ∀ row ∈ summary.gpuDevices.map gpuText, IsOther row := by
    rw [List.forall_mem_map]
    intro row _
    simp only [gpuText, List.append_assoc]
    rw [IsOther, List.take_append_of_le_length (by decide)]
    decide
  refine ⟨rows ((summaryFields summary).take 4), rows ((summaryFields summary).drop 5) ++
    summary.gpuDevices.map gpuText, rfl, rfl, isOther_field ?_, ?_⟩
  · simp only [summaryFields, List.take_succ_cons, List.take_zero, List.map_cons, List.map_nil]
    decide
  · rw [List.forall_mem_append]
    refine ⟨isOther_field ?_, hgpu⟩
    simp only [summaryFields, List.drop_succ_cons, List.drop_zero, List.map_cons, List.map_nil]
    decide

/-- The number is told in full. -/
def ShowsCount (summary : HardwareSummary) : Prop :=
  (bodyText summary).length ≤ maxBodyBytes ∨
    (((bodyLines summary).take 5).flatMap line).length ≤ maxBodyBytes - truncatedMarker.length

/-- The mark stands on a line of its own. -/
def ShowsMark (summary : HardwareSummary) : Prop :=
  if (bodyText summary).length ≤ maxBodyBytes then summary.hasMoreGpuDevices = true
  else AtLineStart ((bodyText summary).take (maxBodyBytes - truncatedMarker.length))

section

variable {summary : HardwareSummary}

theorem take_countLine (n : ℕ) : (countLine n).take 5 = ascii "cpu_l" := by
  rw [countLine, List.take_append_of_le_length (by decide)]
  rfl

theorem not_isOther_countLine (n : ℕ) : ¬ IsOther (countLine n) := fun h => h.1 (take_countLine n)

theorem not_isOther_mark : ¬ IsOther (ascii "truncated=true") := fun h => h.2 rfl

theorem countLine_ne_mark (n : ℕ) : countLine n ≠ ascii "truncated=true" := by
  intro h
  have htake := take_countLine n
  rw [h] at htake
  exact absurd htake (by decide)

theorem countLine_inj {m n : ℕ} : countLine m = countLine n ↔ m = n := by
  rw [countLine, countLine, List.append_cancel_left_eq]
  exact decimal_injective.eq_iff

theorem countLine_mem_bodyLines (n : ℕ) :
    countLine n ∈ bodyLines summary ↔ n = summary.cpu.logicalProcessors := by
  obtain ⟨first, others, hrows, -, hfirst, hothers⟩ := bodyRows_eq summary
  have hnot := not_isOther_countLine n
  have hmark : countLine n ∉
      if summary.hasMoreGpuDevices then [ascii "truncated=true"] else [] := by
    split_ifs
    · exact fun h => countLine_ne_mark n (List.mem_singleton.mp h)
    · exact List.not_mem_nil
  rw [bodyLines, hrows, List.mem_append, List.mem_append, List.mem_cons, countLine_inj]
  constructor
  · rintro ((h | h | h) | h)
    · exact absurd (hfirst _ h) hnot
    · exact h
    · exact absurd (hothers _ h) hnot
    · exact absurd h hmark
  · exact fun h => .inl (.inr (.inl h))

theorem mark_notMem_bodyRows : ascii "truncated=true" ∉ bodyRows summary := by
  obtain ⟨first, others, hrows, -, hfirst, hothers⟩ := bodyRows_eq summary
  rw [hrows, List.mem_append, List.mem_cons]
  rintro (h | h | h)
  · exact not_isOther_mark (hfirst _ h)
  · exact countLine_ne_mark _ h.symm
  · exact not_isOther_mark (hothers _ h)

theorem mark_mem_bodyLines :
    ascii "truncated=true" ∈ bodyLines summary ↔ summary.hasMoreGpuDevices = true := by
  rw [bodyLines, List.mem_append, or_iff_right mark_notMem_bodyRows]
  cases summary.hasMoreGpuDevices with
  | true => simp
  | false => simp

/-- The lines of the body, when their strings are each on one line. -/
theorem lines_body (hlines : ∀ row ∈ bodyLines summary, newline ∉ row) :
    ((bodyText summary).length ≤ maxBodyBytes ∧
      lines (capped truncatedMarker maxBodyBytes (bodyText summary)) =
        bodyLines summary ++ [[]]) ∨
    maxBodyBytes < (bodyText summary).length ∧ ∃ before part rest after,
      bodyLines summary = before ++ (part ++ rest) :: after ∧
      (bodyText summary).take (maxBodyBytes - truncatedMarker.length) =
        before.flatMap line ++ part ∧
      lines (capped truncatedMarker maxBodyBytes (bodyText summary)) =
        before ++ [part ++ ascii "truncated=true", []] := by
  rcases Nat.lt_or_ge maxBodyBytes (bodyText summary).length with hcut | hfits
  · obtain ⟨before, part, rest, after, heq, htake⟩ :=
      exists_take_flatMap_line (l := bodyLines summary)
      (n := maxBodyBytes - truncatedMarker.length) (by rw [← bodyText]; omega)
    rw [← bodyText] at htake
    refine .inr ⟨hcut, before, part, rest, after, heq, htake, ?_⟩
    rw [heq, List.forall_mem_append, List.forall_mem_cons] at hlines
    have hpart : newline ∉ part ++ ascii "truncated=true" := by
      rw [List.mem_append, not_or]
      exact ⟨fun hmem => hlines.2.1 (List.mem_append_left _ hmem), by decide⟩
    have hbody : capped truncatedMarker maxBodyBytes (bodyText summary) =
        (before ++ [part ++ ascii "truncated=true"]).flatMap line := by
      rw [capped_of_lt hcut, htake, List.flatMap_append, List.flatMap_singleton, line,
        List.append_assoc, List.append_assoc]
      rfl
    rw [hbody, lines_flatMap_line, List.append_assoc]
    · rfl
    · rw [List.forall_mem_append, List.forall_mem_singleton]
      exact ⟨hlines.1, hpart⟩
  · refine .inl ⟨hfits, ?_⟩
    rw [capped_of_le hfits, bodyText, lines_flatMap_line hlines]

/-- Of a body that is cut, the number is told in full when five lines are left. -/
theorem countLine_mem_before {before after : List Bytes}
    (h : bodyLines summary = before ++ after) (n : ℕ) : countLine n ∈ before ↔
      n = summary.cpu.logicalProcessors ∧ 5 ≤ before.length := by
  obtain ⟨first, others, hrows, hlength, hfirst, -⟩ := bodyRows_eq summary
  have hbefore : before = (bodyLines summary).take before.length := by
    rw [h, List.take_left]
  have hlines : ∃ more, bodyLines summary =
      first ++ countLine summary.cpu.logicalProcessors :: more :=
    ⟨_, by rw [bodyLines, hrows, List.append_assoc]; rfl⟩
  obtain ⟨more, hlines⟩ := hlines
  constructor
  · intro hmem
    have hall : countLine n ∈ bodyLines summary := h ▸ List.mem_append_left _ hmem
    refine ⟨(countLine_mem_bodyLines n).mp hall, ?_⟩
    by_contra hshort
    rw [hbefore, hlines, List.take_append_of_le_length (by omega)] at hmem
    exact not_isOther_countLine n (hfirst _ (List.mem_of_mem_take hmem))
  · rintro ⟨rfl, hlong⟩
    obtain ⟨k, hk⟩ := Nat.exists_eq_add_of_le hlong
    have htake : before = first ++ countLine summary.cpu.logicalProcessors :: more.take k := by
      rw [hbefore, hlines, List.take_append, List.take_of_length_le (by omega),
        show before.length - first.length = k + 1 by omega, List.take_succ_cons]
    rw [htake]
    exact List.mem_append_right _ List.mem_cons_self

theorem five_le_iff {before after : List Bytes} {part rest : Bytes}
    (h : bodyLines summary = before ++ (part ++ rest) :: after) : 5 ≤ before.length ↔
      (((bodyLines summary).take 5).flatMap line).length ≤
        (before.flatMap line ++ part).length := by
  constructor
  · intro hlong
    have hprefix : (bodyLines summary).take 5 <+: before := by
      rw [h, List.take_append_of_le_length hlong]
      exact List.take_prefix _ _
    have hle := length_flatMap_line_le hprefix
    rw [List.length_append]
    omega
  · intro hle
    by_contra hshort
    have hprefix : before ++ [part ++ rest] <+: (bodyLines summary).take 5 := by
      rw [h, List.take_append, List.take_of_length_le (by omega),
        List.prefix_append_right_inj]
      obtain ⟨k, hk⟩ : ∃ k, 5 - before.length = k + 1 := ⟨4 - before.length, by omega⟩
      rw [hk, List.take_succ_cons]
      exact ⟨_, rfl⟩
    have hlt := length_flatMap_line_le hprefix
    rw [List.flatMap_append, List.flatMap_singleton, line] at hlt
    simp only [List.length_append, List.length_singleton] at hlt hle
    omega

theorem mark_notMem_before {before after : List Bytes} {s : Bytes}
    (h : bodyLines summary = before ++ s :: after) : ascii "truncated=true" ∉ before := by
  intro hmem
  suffices hrows : ascii "truncated=true" ∈ bodyRows summary from mark_notMem_bodyRows hrows
  rw [bodyLines] at h
  cases hmore : summary.hasMoreGpuDevices with
  | true =>
    have hlast := congrArg List.dropLast h
    rw [hmore, if_pos rfl, List.dropLast_concat,
      List.dropLast_append_of_ne_nil (List.cons_ne_nil s after)] at hlast
    rw [hlast]
    exact List.mem_append_left _ hmem
  | false =>
    rw [hmore, if_neg (by decide), List.append_nil] at h
    rw [h]
    exact List.mem_append_left _ hmem

/-- A number is not followed by the mark. -/
theorem countLine_ne_append_mark (n : ℕ) (part : Bytes) :
    countLine n ≠ part ++ ascii "truncated=true" := by
  intro h
  have hlast := congrArg List.getLast? h
  rw [countLine, List.getLast?_append_of_ne_nil _ (decimal_ne_nil n),
    List.getLast?_append_of_ne_nil _ (by decide)] at hlast
  exact absurd (digit_of_mem_decimal (List.mem_of_getLast? hlast)).2 (by decide)

/-- The body tells the number `n` of processors, or has the mark. -/
def TellsOrMarks (n : ℕ) (body : Bytes) : Prop :=
  countLine n ∈ lines body ∨ ascii "truncated=true" ∈ lines body

/-- What a body tells, when its strings are each on one line. -/
theorem tellsOrMarks_iff (hlines : ∀ row ∈ bodyLines summary, newline ∉ row) (n : ℕ) :
    TellsOrMarks n (capped truncatedMarker maxBodyBytes (bodyText summary)) ↔
      (n = summary.cpu.logicalProcessors ∧ ShowsCount summary) ∨ ShowsMark summary := by
  have hcount : countLine n ≠ [] := by simp [countLine, decimal_ne_nil]
  have hmark : ascii "truncated=true" ≠ [] := by decide
  rcases lines_body hlines with ⟨hfits, hbody⟩ | ⟨hcut, before, part, rest, after,
    heq, htake, hbody⟩
  · rw [TellsOrMarks, hbody, ShowsCount, ShowsMark, if_pos hfits, List.mem_append, List.mem_append,
      List.mem_singleton, List.mem_singleton, or_iff_left hcount, or_iff_left hmark,
      countLine_mem_bodyLines, mark_mem_bodyLines, and_iff_left (.inl hfits)]
  · have hpart : newline ∉ part := fun hmem =>
      hlines (part ++ rest) (heq ▸ List.mem_append_right _ List.mem_cons_self)
        (List.mem_append_left _ hmem)
    have hlength : maxBodyBytes - truncatedMarker.length =
        (before.flatMap line ++ part).length := by
      rw [← htake, List.length_take]
      omega
    have hlong : ¬ (bodyText summary).length ≤ maxBodyBytes := by omega
    have hcounted : countLine n ∈ before ++ [part ++ ascii "truncated=true", []] ↔
        countLine n ∈ before := by
      simp [hcount, countLine_ne_append_mark]
    have hmarked : ascii "truncated=true" ∈ before ++ [part ++ ascii "truncated=true", []] ↔
        part = [] := by
      simp [mark_notMem_before heq, hmark]
    rw [TellsOrMarks, hbody, hcounted, hmarked, ShowsCount, or_iff_right hlong, ShowsMark,
      if_neg hlong, htake, atLineStart_iff before hpart, countLine_mem_before heq, five_le_iff heq,
      hlength]

end

end Kasli.Tools.Hardware
