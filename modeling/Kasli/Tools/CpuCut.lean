import Kasli.Tools.CpuPart
import Kasli.Tools.HardwareLines

/-! What the hardware summary says of processors when there are many. Only the beginning of
`/proc/cpuinfo` is read, and nothing says so. -/

namespace Kasli.Tools.Hardware

open Core

/-! ### The summary of the system -/

theorem newline_notMem_bodyLines {summary : HardwareSummary}
    (hstrings : ∀ s ∈ summary.strings, newline ∉ s)
    (hgpu : ∀ s ∈ summary.gpuDevices.flatMap GpuDeviceRow.strings, newline ∉ s) :
    ∀ row ∈ bodyLines summary, newline ∉ row := by
  have hkept := kept_notMem_newline
  have htext {value : Bytes} (h : newline ∉ value) :
      newline ∉ redactLikelySecret (unknownIfEmpty value) := hkept.redact (hkept.unknownIfEmpty h)
  have hnumber (n : ℕ) : newline ∉ decimal n := hkept.plain (isPlain_decimal n)
  have hvalues : ∀ value ∈ (summaryFields summary).map Prod.snd, newline ∉ value := by
    simp only [HardwareSummary.strings, List.forall_mem_cons] at hstrings
    obtain ⟨h1, h2, h3, h4, h5, h6, h7, h8, h9, h10, h11, -⟩ := hstrings
    simp only [summaryFields, List.map_cons, List.map_nil, List.forall_mem_cons]
    exact ⟨by simp, htext h1, htext h2, htext h3, hnumber _, hnumber _, hnumber _, hnumber _,
      hnumber _, htext h4, htext h5, htext h6, htext h7, htext h8, htext h9, htext h10, htext h11,
      hnumber _, by simp⟩
  have hkeys : ∀ key ∈ (summaryFields summary).map Prod.fst, newline ∉ key := by
    simp only [summaryFields, List.map_cons, List.map_nil]
    decide
  have hfields : ∀ row ∈ (summaryFields summary).map fun field => field.1 ++ field.2,
      newline ∉ row := by
    rw [List.forall_mem_map] at hkeys hvalues ⊢
    intro field hfield
    rw [List.mem_append, not_or]
    exact ⟨hkeys field hfield, hvalues field hfield⟩
  have hrows : ∀ row ∈ summary.gpuDevices.map gpuText, newline ∉ row := by
    rw [List.forall_mem_map]
    intro row hrow
    obtain ⟨t, ht, heq⟩ := hkept.gpuRow fun s hs => hgpu s (List.mem_flatMap_of_mem hrow hs)
    rw [formatGpuRow_eq, line, line, List.append_left_inj] at heq
    rwa [heq]
  have hmark : ∀ row ∈ if summary.hasMoreGpuDevices then [ascii "truncated=true"] else [],
      newline ∉ row := by
    split_ifs
    · decide
    · simp
  rw [bodyLines, bodyRows, List.forall_mem_append, List.forall_mem_append]
  exact ⟨⟨hfields, hrows⟩, hmark⟩

/-- The body of the system's summary, and what it tells of the processors. -/
theorem exists_body (readings : HardwareReadings) (machine : KernelName) (n : ℕ) :
    ∃ body, formatHardwareSummaryBody (hardwareSummary readings machine) = some body ∧
      (TellsOrMarks n body ↔
        (n = (hardwareSummary readings machine).cpu.logicalProcessors ∧
          ShowsCount (hardwareSummary readings machine)) ∨
        ShowsMark (hardwareSummary readings machine)) :=
  ⟨_, formatHardwareSummaryBody_eq _, tellsOrMarks_iff (newline_notMem_bodyLines
    (newline_notMem_strings readings machine) (newline_notMem_gpuStrings readings machine)) n⟩

/-- The body tells the number of processors or has the mark exactly when no processor is lost and
the number is not cut off, or the mark stands on a line of its own. -/
theorem tells_processors_iff (readings : HardwareReadings) (machine : KernelName) :
    ∃ body, formatHardwareSummaryBody (hardwareSummary readings machine) = some body ∧
      (TellsOrMarks (processorCount (cpuinfoBlocks (readings.cpuinfo.getD []))) body ↔
        (KeepsProcessors (readings.cpuinfo.getD []) ∧
          ShowsCount (hardwareSummary readings machine)) ∨
        ShowsMark (hardwareSummary readings machine)) := by
  have hcontents : readFileContents readings.cpuinfo =
      readFileContents (some (readings.cpuinfo.getD [])) := rfl
  obtain ⟨body, hbody, htells⟩ := exists_body readings machine
    (processorCount (cpuinfoBlocks (readings.cpuinfo.getD [])))
  refine ⟨body, hbody, ?_⟩
  rw [htells, ← logicalProcessors_eq_iff, ← hcontents, eq_comm]
  rfl

/-! ### Many processors -/

/-- A processor of which nothing else is said. -/
def bareBlock : Bytes := ascii "processor : 10\n\n"

def bareBlocks (k : ℕ) : Bytes := (List.replicate k bareBlock).flatten

theorem length_bareBlocks (k : ℕ) : (bareBlocks k).length = k * 16 := by
  have hlength : bareBlock.length = 16 := by decide
  simp [bareBlocks, hlength]

theorem bareBlocks_succ (k : ℕ) : bareBlocks (k + 1) = bareBlock ++ bareBlocks k := by
  rw [bareBlocks, List.replicate_succ, List.flatten_cons, bareBlocks]

theorem bareBlocks_add (k m : ℕ) : bareBlocks (k + m) = bareBlocks k ++ bareBlocks m := by
  rw [bareBlocks, List.replicate_add, List.flatten_append, bareBlocks, bareBlocks]

theorem lines_bareBlocks_succ (k : ℕ) :
    lines (bareBlocks (k + 1)) = ascii "processor : 10" :: [] :: lines (bareBlocks k) := by
  have hblock : bareBlock = line (ascii "processor : 10") ++ line [] := by decide
  rw [bareBlocks_succ, hblock, List.append_assoc, lines_line, lines_line,
    lines_of_notMem (by decide), lines_of_notMem (by decide)]
  rfl

theorem processorsIn_bareBlocks (k : ℕ) :
    processorsIn (lines (bareBlocks k)) = List.replicate k ⟨true, [], [], 0⟩ := by
  induction k with
  | zero => decide
  | succ k ih =>
    have hblock : processorsIn [ascii "processor : 10"] = [⟨true, [], [], 0⟩] := by decide +kernel
    have hsplit := processorsIn_append_blank [ascii "processor : 10"]
      (show isBlankLine [] = true by decide) (lines (bareBlocks k))
    rw [lines_bareBlocks_succ, ← List.singleton_append, hsplit, hblock, ih]
    rfl

/-- Of many processors the first 4096 are read. -/
theorem readFileContents_bareBlocks :
    readFileContents (some (bareBlocks 5000)) = bareBlocks 4096 := by
  have hlength := length_bareBlocks
  have hcut : ((bareBlocks 5000).take (maxHardwareInputBytes + 1)).take maxHardwareInputBytes =
      bareBlocks 4096 := by
    rw [List.take_take, show (5000 : ℕ) = 4096 + 904 from rfl, bareBlocks_add]
    exact List.take_left' (by rw [hlength]; rfl)
  have hwhole : (bareBlocks 4096).rdropWhile (fun b => b ≠ newline) = bareBlocks 4096 := by
    have hlast : bareBlocks 1 = ascii "processor : 10\n" ++ [newline] := by decide
    rw [show (4096 : ℕ) = 4095 + 1 from rfl, bareBlocks_add, hlast, ← List.append_assoc,
      List.rdropWhile_concat_neg _ _ _ (by simp)]
  have hne : bareBlocks 4096 ≠ [] := List.ne_nil_of_length_pos (by rw [hlength]; decide)
  have hlong : ¬ ((bareBlocks 5000).take (maxHardwareInputBytes + 1)).length ≤
      maxHardwareInputBytes := by
    rw [List.length_take, hlength]
    decide
  simp only [readFileContents, truncateHardwareInput, Option.getD_some]
  rw [if_neg hlong, hcut, hwhole, if_neg hne]

theorem mem_lines_bareBlocks {k : ℕ} {l : Bytes} (h : l ∈ lines (bareBlocks k)) :
    l = ascii "processor : 10" ∨ l = [] := by
  induction k with
  | zero => exact .inr (List.mem_singleton.mp h)
  | succ k ih =>
    rw [lines_bareBlocks_succ, List.mem_cons, List.mem_cons] at h
    rcases h with h | h | h
    · exact .inl h
    · exact .inr h
    · exact ih h

/-- The names of the processor are not among what is said. -/
theorem foldl_scanLine_bare {lines : List Bytes}
    (h : ∀ l ∈ lines, l = ascii "processor : 10" ∨ l = []) (scan : CpuScan) :
    (lines.foldl scanLine scan).vendorId = scan.vendorId ∧
      (lines.foldl scanLine scan).modelName = scan.modelName := by
  have hfilled : isBlankLine (ascii "processor : 10") = false := by decide +kernel
  have hparse : parseKeyValueLine (ascii "processor : 10") =
      some (ascii "processor", ascii "10") := by decide +kernel
  induction lines generalizing scan with
  | nil => exact ⟨rfl, rfl⟩
  | cons l lines ih =>
    rw [List.forall_mem_cons] at h
    obtain ⟨hvendor, hmodel⟩ := ih h.2 (scanLine scan l)
    rw [List.foldl_cons, hvendor, hmodel]
    rcases h.1 with rfl | rfl
    · rw [scanLine, hfilled, hparse]
      exact ⟨rfl, rfl⟩
    · exact ⟨rfl, rfl⟩

theorem countCores_replicate (k : ℕ) : countCores (List.replicate k ⟨true, [], [], 0⟩) = k := by
  cases k with
  | zero => rfl
  | succ k =>
    rw [countCores, List.toFinset_replicate_of_ne_zero (Nat.succ_ne_zero k), List.length_replicate]
    rfl

theorem parse_bareBlocks (k : ℕ) : parseCpuinfoSummary (bareBlocks k) = ⟨[], [], k, k⟩ := by
  have hnames := foldl_scanLine_bare (fun _ => mem_lines_bareBlocks (k := k)) .start
  have hcounts := parseCpuinfoSummary_counts (bareBlocks k)
  change _ = (processorsIn (lines (bareBlocks k))).length ∧
    _ = countCores (processorsIn (lines (bareBlocks k))) at hcounts
  rw [processorsIn_bareBlocks, List.length_replicate, countCores_replicate] at hcounts
  have hvendor : (parseCpuinfoSummary (bareBlocks k)).vendorId = [] := hnames.1
  have hmodel : (parseCpuinfoSummary (bareBlocks k)).modelName = [] := hnames.2
  generalize parseCpuinfoSummary (bareBlocks k) = summary at *
  cases summary
  rw [CpuSummary.mk.injEq]
  exact ⟨hvendor, hmodel, hcounts⟩

/-- A system with five thousand processors, of which nothing else is known. -/
def manyProcessors : HardwareReadings where
  machine := some ⟨ascii "x86_64", by decide⟩
  cpuinfo := some (bareBlocks 5000)
  meminfo := none
  dmi := ⟨none, none, none, none, none, none, none, none⟩
  drmNames := []
  devices _ := none

/-- What is told of it. -/
def truncatedSummary : HardwareSummary where
  architecture := ascii "x86_64"
  cpu := ⟨[], [], 4096, 4096⟩
  memory := ⟨0, 0, 0⟩
  dmi := readDmi ⟨none, none, none, none, none, none, none, none⟩
  gpuDevices := []
  hasMoreGpuDevices := false

/-- The summary tells of 4096 of them, and has no mark. -/
theorem processors_lost : ¬ ∀ (readings : HardwareReadings) (machine : KernelName),
    ∃ body, formatHardwareSummaryBody (hardwareSummary readings machine) = some body ∧
      TellsOrMarks (processorCount (cpuinfoBlocks (readings.cpuinfo.getD []))) body := by
  intro h
  obtain ⟨body, hbody, htells⟩ := h manyProcessors ⟨ascii "x86_64", by decide⟩
  obtain ⟨body', hbody', hiff⟩ := exists_body manyProcessors ⟨ascii "x86_64", by decide⟩
    (processorCount (cpuinfoBlocks (manyProcessors.cpuinfo.getD [])))
  obtain rfl := Option.some.inj (hbody.symm.trans hbody')
  have hsummary : hardwareSummary manyProcessors ⟨ascii "x86_64", by decide⟩ =
      truncatedSummary := by
    rw [hardwareSummary, manyProcessors]
    dsimp only
    rw [readFileContents_bareBlocks, parse_bareBlocks]
    decide +kernel
  have hcount : processorCount (cpuinfoBlocks (bareBlocks 5000)) = 5000 := by
    rw [← logicalProcessors_eq_processorCount, parse_bareBlocks]
  have hcontent : manyProcessors.cpuinfo.getD [] = bareBlocks 5000 := rfl
  have hpresent : truncatedSummary.cpu.logicalProcessors = 4096 := rfl
  have hfits : (bodyText truncatedSummary).length ≤ maxBodyBytes := by decide +kernel
  rw [hsummary, hcontent, hcount, hpresent, ShowsMark, if_pos hfits] at hiff
  rw [hcontent, hcount] at htells
  rcases hiff.mp htells with ⟨htold, -⟩ | hmark
  · exact absurd htold (by decide)
  · exact absurd hmark (by decide)

end Kasli.Tools.Hardware
