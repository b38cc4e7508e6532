import Kasli.Tools.CpuInfo
import Kasli.Tools.ValidBodies

/-! Where the hardware summary tool gets its summary from (`default_hardware_summary_provider` of
`tools/hardware_tool.cpp`). What the system says is a parameter. Of a large file only the
beginning is read, up to the last end of a line in 64 KiB. -/

namespace Kasli.Tools.Hardware

def maxGpuRows : ℕ := 16
def maxHardwareInputBytes : ℕ := 64 * 1024

/-! ### Large files -/

/-- What is longer than the limit is cut after the last end of a line, if there is one. -/
def truncateHardwareInput (content : Bytes) : Bytes :=
  if content.length ≤ maxHardwareInputBytes then content
  else
    let cut := content.take maxHardwareInputBytes
    let whole := cut.rdropWhile fun b => b ≠ newline
    if whole = [] then cut else whole

/-- `read_file_contents`; a file that cannot be opened has no contents. -/
def readFileContents (content : Option Bytes) : Bytes :=
  truncateHardwareInput ((content.getD []).take (maxHardwareInputBytes + 1))

/-! ### Memory -/

def parseKibValue (value : Bytes) : ℕ :=
  let digits := value.takeWhile fun b => chr '0' ≤ b && b ≤ chr '9'
  if digits = [] then 0 else ((stoull 10 digits).map fun n => n * 1024 % 2 ^ 64).getD 0

def memoryLine (summary : MemorySummary) (line : Bytes) : MemorySummary :=
  match parseKeyValueLine line with
  | none => summary
  | some (key, value) =>
    if key = ascii "MemTotal" then { summary with totalBytes := parseKibValue value }
    else if key = ascii "MemAvailable" then { summary with availableBytes := parseKibValue value }
    else if key = ascii "SwapTotal" then { summary with swapTotalBytes := parseKibValue value }
    else summary

def parseMeminfoSummary (content : Bytes) : MemorySummary :=
  (lines content).foldl memoryLine ⟨0, 0, 0⟩

/-! ### Devices -/

/-- A name that the kernel gives, which is on one line. -/
structure KernelName where
  text : Bytes
  oneLine : newline ∉ text

def isDrmCardName (name : Bytes) : Bool :=
  if ¬ ascii "card" <+: name ∨ name.length = 4 then false
  else (name.drop 4).all fun b => chr '0' ≤ b && b ≤ chr '9'

/-- What is read of a device; the driver is the name that its link leads to. -/
structure GpuFiles where
  vendor : Option Bytes
  device : Option Bytes
  class' : Option Bytes
  driver : Option KernelName

def readDriverName (driver : Option KernelName) : Bytes :=
  match driver with
  | none => ascii "unknown"
  | some name => name.text

/-- The row of a card whose device exists. -/
def gpuRow (devices : Bytes → Option GpuFiles) (name : Bytes) : Option GpuDeviceRow := do
  let files ← devices name
  return { name
           vendorId := readTextFile files.vendor (ascii "unknown")
           deviceId := readTextFile files.device (ascii "unknown")
           classId := readTextFile files.class' (ascii "unknown")
           driver := readDriverName files.driver
           source := ascii "sysfs" }

/-! ### The summary -/

structure DmiFiles where
  sysVendor : Option Bytes
  productName : Option Bytes
  productVersion : Option Bytes
  boardVendor : Option Bytes
  boardName : Option Bytes
  biosVendor : Option Bytes
  biosVersion : Option Bytes
  chassisType : Option Bytes

/-- What the system says. There are no names of cards when the directory does not exist. -/
structure HardwareReadings where
  machine : Option KernelName
  cpuinfo : Option Bytes
  meminfo : Option Bytes
  dmi : DmiFiles
  drmNames : List Bytes
  devices : Bytes → Option GpuFiles

def readDmi (files : DmiFiles) : DmiSummary where
  systemVendor := readTextFile files.sysVendor (ascii "unknown")
  productName := readTextFile files.productName (ascii "unknown")
  productVersion := readTextFile files.productVersion (ascii "unknown")
  boardVendor := readTextFile files.boardVendor (ascii "unknown")
  boardName := readTextFile files.boardName (ascii "unknown")
  biosVendor := readTextFile files.biosVendor (ascii "unknown")
  biosVersion := readTextFile files.biosVersion (ascii "unknown")
  chassisType := readTextFile files.chassisType (ascii "unknown")

/-- The names of the cards in their order. -/
def cardNames (names : List Bytes) : List Bytes :=
  (names.filter isDrmCardName).mergeSort fun left right => !decide (right < left)

def hardwareSummary (readings : HardwareReadings) (machine : KernelName) : HardwareSummary :=
  let (gpuDevices, hasMoreGpuDevices) :=
    collect maxGpuRows ((cardNames readings.drmNames).filterMap (gpuRow readings.devices))
  { architecture := machine.text
    cpu := parseCpuinfoSummary (readFileContents readings.cpuinfo)
    memory := parseMeminfoSummary (readFileContents readings.meminfo)
    dmi := readDmi readings.dmi
    gpuDevices, hasMoreGpuDevices }

def emptySummary : HardwareSummary where
  architecture := []
  cpu := ⟨[], [], 0, 0⟩
  memory := ⟨0, 0, 0⟩
  dmi := ⟨[], [], [], [], [], [], [], []⟩
  gpuDevices := []
  hasMoreGpuDevices := false

/-- `default_hardware_summary_provider`; `uname` may fail. -/
def hardwareSummaryProvider (readings : HardwareReadings) : HardwareSummaryResult :=
  match readings.machine with
  | none => { ok := false, error := ascii "hardware summary is not available",
              summary := emptySummary }
  | some machine => { ok := true, error := [], summary := hardwareSummary readings machine }

/-! ### Every string is on one line -/

theorem newline_notMem_parseKeyValueLine {line key value : Bytes} (hline : newline ∉ line)
    (h : parseKeyValueLine line = some (key, value)) : newline ∉ value := by
  obtain ⟨separator, -, h⟩ := Option.bind_eq_some_iff.mp h
  obtain ⟨-, rfl⟩ := Prod.mk.inj (Option.some.inj h)
  exact fun hmem => hline (List.mem_of_mem_drop (mem_of_mem_trim hmem))

/-- The names of the processor are values of a line. -/
theorem newline_notMem_scan {lines : List Bytes} (hlines : ∀ line ∈ lines, newline ∉ line)
    {scan : CpuScan} (hvendor : newline ∉ scan.vendorId) (hmodel : newline ∉ scan.modelName) :
    newline ∉ (lines.foldl scanLine scan).vendorId ∧
      newline ∉ (lines.foldl scanLine scan).modelName := by
  induction lines generalizing scan with
  | nil => exact ⟨hvendor, hmodel⟩
  | cons line lines ih =>
    rw [List.forall_mem_cons] at hlines
    rw [List.foldl_cons]
    have hstep : newline ∉ (scanLine scan line).vendorId ∧
        newline ∉ (scanLine scan line).modelName := by
      rw [scanLine]
      split_ifs with hblank
      · exact ⟨hvendor, hmodel⟩
      · cases hline : parseKeyValueLine line with
        | none => exact ⟨hvendor, hmodel⟩
        | some item =>
          have hvalue := newline_notMem_parseKeyValueLine hlines.1 hline
          simp only [scanItem]
          split_ifs
          · exact ⟨hvendor, hmodel⟩
          · exact ⟨hvalue, hmodel⟩
          · exact ⟨hvendor, hvalue⟩
          · exact ⟨hvendor, hmodel⟩
          · exact ⟨hvendor, hmodel⟩
          · exact ⟨hvendor, hmodel⟩
          · exact ⟨hvendor, hmodel⟩
    exact ih hlines.2 hstep.1 hstep.2

theorem newline_notMem_cardName {name : Bytes} (h : isDrmCardName name = true) :
    newline ∉ name := by
  rw [isDrmCardName] at h
  split_ifs at h with hcard
  rw [not_or, not_not] at hcard
  obtain ⟨digits, rfl⟩ := hcard.1
  have hdrop : (ascii "card" ++ digits).drop 4 = digits := rfl
  rw [hdrop] at h
  intro hmem
  rcases List.mem_append.mp hmem with hmem | hmem
  · exact absurd hmem (by decide)
  · exact absurd (List.all_eq_true.mp h _ hmem) (by decide)

theorem newline_notMem_strings (readings : HardwareReadings) (machine : KernelName) :
    ∀ s ∈ (hardwareSummary readings machine).strings, newline ∉ s := by
  have hread := @newline_notMem_readTextFile (ascii "unknown") (by decide)
  have hscan := @newline_notMem_scan (lines (readFileContents readings.cpuinfo))
    (fun line hline => newline_notMem_of_mem_lines hline) .start
    (by simp [CpuScan.start]) (by simp [CpuScan.start])
  simp only [HardwareSummary.strings, List.forall_mem_cons]
  exact ⟨machine.oneLine, hscan.1, hscan.2, hread _, hread _, hread _, hread _, hread _, hread _,
    hread _, hread _, by simp⟩

theorem newline_notMem_gpuRow {devices : Bytes → Option GpuFiles} {name : Bytes}
    (hname : newline ∉ name) {row : GpuDeviceRow} (h : gpuRow devices name = some row) :
    ∀ s ∈ row.strings, newline ∉ s := by
  have hread := @newline_notMem_readTextFile (ascii "unknown") (by decide)
  obtain ⟨files, -, h⟩ := Option.bind_eq_some_iff.mp h
  have hdriver : newline ∉ readDriverName files.driver := by
    cases hfile : files.driver with
    | none => decide
    | some driver => exact driver.oneLine
  obtain rfl := Option.some.inj h
  simp only [GpuDeviceRow.strings, List.forall_mem_cons]
  exact ⟨hname, hread _, hread _, hread _, hdriver, by decide, by simp⟩

theorem newline_notMem_gpuStrings (readings : HardwareReadings) (machine : KernelName) :
    ∀ s ∈ (hardwareSummary readings machine).gpuDevices.flatMap GpuDeviceRow.strings,
      newline ∉ s := by
  intro s hs
  obtain ⟨row, hrow, hs⟩ := List.mem_flatMap.mp hs
  simp only [hardwareSummary, collect_eq] at hrow
  obtain ⟨name, hname, hgpu⟩ := List.mem_filterMap.mp (List.mem_of_mem_take hrow)
  rw [cardNames, List.mem_mergeSort, List.mem_filter] at hname
  exact newline_notMem_gpuRow (newline_notMem_cardName hname.2) hgpu s hs

end Kasli.Tools.Hardware
