import Kasli.Data.OrderedMap
import Kasli.Text.Readings
import Kasli.Tools.Hardware
import Mathlib.Algebra.BigOperators.Group.Finset.Basic

/-! How `/proc/cpuinfo` is read (`parse_cpuinfo_summary` of `tools/hardware_tool.cpp`). One pass
over the lines keeps what was said in the block it is in and what follows from the blocks before;
a blank line and the end of the text end a block. The pass takes the blocks one after another, the
last value of each key of a block. -/

namespace Kasli.Tools.Hardware

/-! ### The pass -/

/-- `parse_key_value_line` -/
def parseKeyValueLine (line : Bytes) : Option (Bytes × Bytes) := do
  let separator ← line.idxOf? (chr ':')
  return (trim (line.take separator), trim (line.drop (separator + 1)))

def parseSize (value : Bytes) : ℕ := (stoull 10 value).getD 0

/-- What the lines of a block say. -/
@[ext] structure CpuBlock where
  hasProcessor : Bool
  physicalId : Bytes
  coreId : Bytes
  cpuCores : ℕ
  deriving DecidableEq

def CpuBlock.none : CpuBlock := ⟨false, [], [], 0⟩

/-- What the blocks before say. -/
structure CpuTotals where
  logicalProcessors : ℕ
  fallbackCores : ℕ
  socketCoreCounts : OrderedMap Bytes ℕ
  physicalCoreIds : Finset Bytes

def CpuTotals.none : CpuTotals := ⟨0, 0, .empty, ∅⟩

/-- `finalize_cpu_block` -/
def finalizeCpuBlock (totals : CpuTotals) (block : CpuBlock) : CpuTotals :=
  if !block.hasProcessor then totals
  else
    let id := block.physicalId ++ ascii ":" ++ block.coreId
    let cores := max ((totals.socketCoreCounts.find? block.physicalId).getD 0) block.cpuCores
    let counted :=
      if block.physicalId ≠ [] ∧ block.coreId ≠ [] then
        { totals with physicalCoreIds := insert id totals.physicalCoreIds }
      else if block.physicalId ≠ [] ∧ block.cpuCores > 0 then
        { totals with socketCoreCounts := totals.socketCoreCounts.assign block.physicalId cores }
      else totals
    { counted with logicalProcessors := totals.logicalProcessors + 1,
                   fallbackCores := max totals.fallbackCores block.cpuCores }

structure CpuScan where
  vendorId : Bytes
  modelName : Bytes
  totals : CpuTotals
  block : CpuBlock

def CpuScan.start : CpuScan := ⟨[], [], .none, .none⟩

def scanItem (scan : CpuScan) (key value : Bytes) : CpuScan :=
  if key = ascii "processor" then { scan with block := { scan.block with hasProcessor := true } }
  else if key = ascii "vendor_id" ∧ scan.vendorId = [] then { scan with vendorId := value }
  else if key = ascii "model name" ∧ scan.modelName = [] then { scan with modelName := value }
  else if key = ascii "physical id" then
    { scan with block := { scan.block with physicalId := value } }
  else if key = ascii "core id" then { scan with block := { scan.block with coreId := value } }
  else if key = ascii "cpu cores" then
    { scan with block := { scan.block with cpuCores := parseSize value } }
  else scan

def isBlankLine (line : Bytes) : Bool := decide (trim line = [])

def scanLine (scan : CpuScan) (line : Bytes) : CpuScan :=
  if isBlankLine line then
    { scan with totals := finalizeCpuBlock scan.totals scan.block, block := .none }
  else
    match parseKeyValueLine line with
    | none => scan
    | some (key, value) => scanItem scan key value

/-- The sum of the counts of the sockets, as `size_t` has it. -/
def sumSizes (counts : List ℕ) : ℕ := counts.foldl (fun sum count => (sum + count) % 2 ^ 64) 0

def CpuTotals.physicalCores (totals : CpuTotals) : ℕ :=
  if totals.physicalCoreIds.Nonempty then totals.physicalCoreIds.card
  else if totals.socketCoreCounts.entries ≠ [] then
    sumSizes (totals.socketCoreCounts.entries.map Prod.snd)
  else if totals.fallbackCores > 0 then totals.fallbackCores
  else totals.logicalProcessors

def parseCpuinfoSummary (content : Bytes) : CpuSummary :=
  let scan := (lines content).foldl scanLine .start
  let totals := finalizeCpuBlock scan.totals scan.block
  { vendorId := scan.vendorId, modelName := scan.modelName,
    logicalProcessors := totals.logicalProcessors, physicalCores := totals.physicalCores }

/-! ### Blocks -/

/-- The keys and values of a block. -/
def blockItems (block : List Bytes) : List (Bytes × Bytes) := block.filterMap parseKeyValueLine

/-- The last value of a key. -/
def lastValue (key : Bytes) (items : List (Bytes × Bytes)) : Option Bytes :=
  OrderedMap.lookup key items.reverse

/-- The block has a line with the key `processor`. -/
def HasProcessor (block : List Bytes) : Prop :=
  ∃ item ∈ blockItems block, item.1 = ascii "processor"

instance (block : List Bytes) : Decidable (HasProcessor block) :=
  inferInstanceAs (Decidable (∃ item ∈ blockItems block, item.1 = ascii "processor"))

/-- What a block says, the last value of a key for each. -/
def cpuBlock (block : List Bytes) : CpuBlock where
  hasProcessor := decide (HasProcessor block)
  physicalId := (lastValue (ascii "physical id") (blockItems block)).getD []
  coreId := (lastValue (ascii "core id") (blockItems block)).getD []
  cpuCores := parseSize ((lastValue (ascii "cpu cores") (blockItems block)).getD [])

/-- The blocks of a text, with empty ones between blank lines that follow one another. -/
def cpuinfoBlocks (content : Bytes) : List (List Bytes) := (lines content).splitOnP isBlankLine

theorem blockItems_concat (block : List Bytes) (line : Bytes) :
    blockItems (block ++ [line]) = blockItems block ++ (parseKeyValueLine line).toList := by
  rw [blockItems, List.filterMap_append]
  cases h : parseKeyValueLine line <;> simp [h, blockItems]

theorem lastValue_concat (key : Bytes) (items : List (Bytes × Bytes)) (item : Bytes × Bytes) :
    lastValue key (items ++ [item]) =
      if item.1 = key then some item.2 else lastValue key items := by
  rw [lastValue, List.reverse_append, List.reverse_singleton, List.singleton_append,
    OrderedMap.lookup_cons, lastValue]
  simp only [eq_comm]

/-- What an item adds to a block. -/
def CpuBlock.add (block : CpuBlock) (key value : Bytes) : CpuBlock where
  hasProcessor := decide (key = ascii "processor") || block.hasProcessor
  physicalId := if key = ascii "physical id" then value else block.physicalId
  coreId := if key = ascii "core id" then value else block.coreId
  cpuCores := if key = ascii "cpu cores" then parseSize value else block.cpuCores

theorem scanItem_block (scan : CpuScan) (key value : Bytes) :
    (scanItem scan key value).block = scan.block.add key value := by
  rw [scanItem]
  split_ifs with hprocessor hvendor hmodel hphysical hcore hcores
  · subst hprocessor
    rfl
  · obtain ⟨rfl, -⟩ := hvendor
    rfl
  · obtain ⟨rfl, -⟩ := hmodel
    rfl
  · subst hphysical
    rfl
  · subst hcore
    rfl
  · subst hcores
    rfl
  · simp only [CpuBlock.add, hprocessor, hphysical, hcore, hcores, decide_false, Bool.false_or,
      if_false]

theorem scanItem_totals (scan : CpuScan) (key value : Bytes) :
    (scanItem scan key value).totals = scan.totals := by
  rw [scanItem]
  split_ifs
  all_goals rfl

theorem cpuBlock_concat_of_none (block : List Bytes) {line : Bytes}
    (h : parseKeyValueLine line = none) : cpuBlock (block ++ [line]) = cpuBlock block := by
  have hitems : blockItems (block ++ [line]) = blockItems block := by
    rw [blockItems_concat, h, Option.toList_none, List.append_nil]
  have hprocessor : HasProcessor (block ++ [line]) ↔ HasProcessor block := by
    rw [HasProcessor, hitems, HasProcessor]
  apply CpuBlock.ext
  · exact decide_eq_decide.mpr hprocessor
  · simp only [cpuBlock, hitems]
  · simp only [cpuBlock, hitems]
  · simp only [cpuBlock, hitems]

theorem cpuBlock_concat_of_some (block : List Bytes) {line key value : Bytes}
    (h : parseKeyValueLine line = some (key, value)) :
    cpuBlock (block ++ [line]) = (cpuBlock block).add key value := by
  have hitems : blockItems (block ++ [line]) = blockItems block ++ [(key, value)] := by
    rw [blockItems_concat, h, Option.toList_some]
  have hprocessor : HasProcessor (block ++ [line]) ↔
      key = ascii "processor" ∨ HasProcessor block := by
    rw [HasProcessor, hitems, HasProcessor]
    constructor
    · rintro ⟨item, hitem, hkey⟩
      rcases List.mem_append.mp hitem with hmem | hmem
      · exact .inr ⟨item, hmem, hkey⟩
      · rw [List.mem_singleton.mp hmem] at hkey
        exact .inl hkey
    · rintro (hkey | ⟨item, hitem, hkey⟩)
      · exact ⟨(key, value), by simp, hkey⟩
      · exact ⟨item, List.mem_append_left _ hitem, hkey⟩
  have hlast (name : Bytes) : (lastValue name (blockItems (block ++ [line]))).getD [] =
      if key = name then value else (lastValue name (blockItems block)).getD [] := by
    rw [hitems, lastValue_concat]
    split_ifs
    · rfl
    · rfl
  apply CpuBlock.ext
  · exact (decide_eq_decide.mpr hprocessor).trans (Bool.decide_or _ _)
  · exact hlast _
  · exact hlast _
  · simp only [cpuBlock, CpuBlock.add, hlast]
    exact apply_ite parseSize _ _ _

/-- A line of a block is taken into account, and a blank one begins another block. -/
theorem foldl_scanLine (lines : List Bytes) (scan : CpuScan) (block : List Bytes)
    (h : scan.block = cpuBlock block) :
    finalizeCpuBlock (lines.foldl scanLine scan).totals (lines.foldl scanLine scan).block =
      (((lines.splitOnP isBlankLine).modifyHead (block ++ ·)).map cpuBlock).foldl finalizeCpuBlock
        scan.totals := by
  induction lines generalizing scan block with
  | nil => simp [h]
  | cons line lines ih =>
    rw [List.foldl_cons, List.splitOnP_cons_eq_if_modifyHead]
    cases hblank : isBlankLine line with
    | true =>
      have hscan : scanLine scan line =
          { scan with totals := finalizeCpuBlock scan.totals scan.block, block := .none } :=
        if_pos hblank
      rw [ih (scanLine scan line) [] (by rw [hscan]; rfl), hscan, h]
      have hhead : (fun x : List Bytes => [] ++ x) = id := rfl
      rw [hhead, List.modifyHead_id, if_pos rfl, List.modifyHead_cons, List.append_nil,
        List.map_cons, List.foldl_cons, id]
    | false =>
      have hnext : (scanLine scan line).block = cpuBlock (block ++ [line]) ∧
          (scanLine scan line).totals = scan.totals := by
        rw [scanLine, hblank]
        simp only [Bool.false_eq_true, if_false]
        cases hline : parseKeyValueLine line with
        | none => exact ⟨by rw [cpuBlock_concat_of_none block hline, h], rfl⟩
        | some item =>
          exact ⟨by rw [cpuBlock_concat_of_some block hline, scanItem_block, h],
            scanItem_totals scan item.1 item.2⟩
      have hhead : (fun x => block ++ [line] ++ x) = (fun x => block ++ x) ∘ List.cons line := by
        funext x
        rw [List.append_assoc]
        rfl
      rw [ih _ _ hnext.1, hnext.2, hhead, if_neg (by decide), List.modifyHead_modifyHead]

/-- The totals of the blocks of a text. -/
theorem finalize_parse (content : Bytes) :
    finalizeCpuBlock ((lines content).foldl scanLine .start).totals
        ((lines content).foldl scanLine .start).block =
      ((cpuinfoBlocks content).map cpuBlock).foldl finalizeCpuBlock .none := by
  have hhead : (fun x : List Bytes => [] ++ x) = id := rfl
  rw [foldl_scanLine (lines content) .start [] rfl, hhead, List.modifyHead_id]
  rfl

end Kasli.Tools.Hardware
