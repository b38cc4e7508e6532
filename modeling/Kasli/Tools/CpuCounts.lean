import Kasli.Tools.CpuInfo
import Mathlib.Algebra.GroupWithZero.Nat
import Mathlib.Data.Finset.Lattice.Fold
import Mathlib.Order.Lattice.Nat

/-! How many processors and cores a text tells of. The counts of the pass are those of the set of
the blocks, so neither the order of the blocks nor the blank lines between them matter. -/

namespace Kasli.Tools.Hardware

/-! ### Counts of a set of blocks -/

/-- The cores that are told apart by their ids. -/
def coreIds (blocks : Finset CpuBlock) : Finset Bytes :=
  (blocks.filter fun block => block.physicalId ≠ [] ∧ block.coreId ≠ []).image fun block =>
    block.physicalId ++ ascii ":" ++ block.coreId

/-- The blocks that tell the number of cores of a socket. -/
def socketBlocks (blocks : Finset CpuBlock) : Finset CpuBlock :=
  blocks.filter fun block => block.physicalId ≠ [] ∧ block.cpuCores > 0

/-- The largest number of cores that is told of a socket. -/
def socketCores (blocks : Finset CpuBlock) (id : Bytes) : ℕ :=
  ((socketBlocks blocks).filter fun block => block.physicalId = id).sup CpuBlock.cpuCores

/-- The number of cores of the processors. -/
def countCores (processors : List CpuBlock) : ℕ :=
  let blocks := processors.toFinset
  if (coreIds blocks).Nonempty then (coreIds blocks).card
  else if (socketBlocks blocks).Nonempty then
    (∑ id ∈ (socketBlocks blocks).image CpuBlock.physicalId, socketCores blocks id) % 2 ^ 64
  else if blocks.sup CpuBlock.cpuCores > 0 then blocks.sup CpuBlock.cpuCores
  else processors.length

/-- The blocks that are of a processor. -/
def processorBlocks (blocks : List CpuBlock) : List CpuBlock := blocks.filter (·.hasProcessor)

/-- The blocks that the pass takes the number of cores of a socket from. -/
def countedSockets (blocks : Finset CpuBlock) : Finset CpuBlock :=
  blocks.filter fun block => block.physicalId ≠ [] ∧ block.coreId = [] ∧ block.cpuCores > 0

/-- What the totals are after some processors. -/
structure CpuTotals.Counts (totals : CpuTotals) (processors : List CpuBlock) : Prop where
  logical : totals.logicalProcessors = processors.length
  fallback : totals.fallbackCores = processors.toFinset.sup CpuBlock.cpuCores
  cores : totals.physicalCoreIds = coreIds processors.toFinset
  sockets : ∀ id, (totals.socketCoreCounts.find? id).isSome ↔
    id ∈ (countedSockets processors.toFinset).image CpuBlock.physicalId
  largest : ∀ id, (totals.socketCoreCounts.find? id).getD 0 =
    ((countedSockets processors.toFinset).filter fun block => block.physicalId = id).sup
      CpuBlock.cpuCores

theorem toFinset_concat (processors : List CpuBlock) (block : CpuBlock) :
    (processors ++ [block]).toFinset = insert block processors.toFinset := by
  rw [List.toFinset_append, Finset.union_comm]
  rfl

theorem coreIds_insert (block : CpuBlock) (blocks : Finset CpuBlock) :
    coreIds (insert block blocks) = if block.physicalId ≠ [] ∧ block.coreId ≠ [] then
      insert (block.physicalId ++ ascii ":" ++ block.coreId)
        (coreIds blocks) else coreIds blocks := by
  rw [coreIds, Finset.filter_insert]
  split_ifs
  · rw [Finset.image_insert, coreIds]
  · rfl

theorem countedSockets_insert (block : CpuBlock) (blocks : Finset CpuBlock) :
    countedSockets (insert block blocks) =
      if block.physicalId ≠ [] ∧ block.coreId = [] ∧ block.cpuCores > 0 then
        insert block (countedSockets blocks) else countedSockets blocks :=
  Finset.filter_insert ..

theorem counts_none : CpuTotals.none.Counts [] where
  logical := rfl
  fallback := rfl
  cores := rfl
  sockets id := by simp [CpuTotals.none, countedSockets]
  largest id := by simp [CpuTotals.none, countedSockets]

/-- One more processor. -/
theorem CpuTotals.Counts.finalize {totals : CpuTotals} {processors : List CpuBlock}
    (h : totals.Counts processors) {block : CpuBlock} (hblock : block.hasProcessor = true) :
    (finalizeCpuBlock totals block).Counts (processors ++ [block]) := by
  have hsup : (processors ++ [block]).toFinset.sup CpuBlock.cpuCores =
      max totals.fallbackCores block.cpuCores := by
    rw [toFinset_concat, Finset.sup_insert, h.fallback]
    exact max_comm _ _
  have hlength : totals.logicalProcessors + 1 = (processors ++ [block]).length := by
    rw [h.logical, List.length_append, List.length_singleton]
  rw [finalizeCpuBlock, hblock]
  simp only [Bool.not_true, Bool.false_eq_true, if_false]
  split_ifs with hcore hsocket
  · have hnot : ¬ (block.physicalId ≠ [] ∧ block.coreId = [] ∧ block.cpuCores > 0) :=
      fun hs => hcore.2 hs.2.1
    refine ⟨hlength, hsup.symm, ?_, ?_, ?_⟩
    · rw [toFinset_concat, coreIds_insert, if_pos hcore, h.cores]
    · rw [toFinset_concat, countedSockets_insert, if_neg hnot]
      exact h.sockets
    · rw [toFinset_concat, countedSockets_insert, if_neg hnot]
      exact h.largest
  · have hcounted : block.physicalId ≠ [] ∧ block.coreId = [] ∧ block.cpuCores > 0 :=
      ⟨hsocket.1, by simpa [hsocket.1] using hcore, hsocket.2⟩
    refine ⟨hlength, hsup.symm, ?_, fun id => ?_, fun id => ?_⟩
    · rw [toFinset_concat, coreIds_insert, if_neg hcore, h.cores]
    · rw [toFinset_concat, countedSockets_insert, if_pos hcounted, OrderedMap.find?_assign,
        Finset.image_insert, Finset.mem_insert, ← h.sockets]
      by_cases hid : id = block.physicalId
      · simp [hid]
      · simp [hid]
    · rw [toFinset_concat, countedSockets_insert, if_pos hcounted, OrderedMap.find?_assign,
        Finset.filter_insert]
      by_cases hid : id = block.physicalId
      · subst hid
        rw [if_pos rfl, if_pos rfl, Finset.sup_insert, ← h.largest, Option.getD_some]
        exact max_comm _ _
      · rw [if_neg hid, if_neg (Ne.symm hid), h.largest]
  · have hnot : ¬ (block.physicalId ≠ [] ∧ block.coreId = [] ∧ block.cpuCores > 0) :=
      fun hs => hsocket ⟨hs.1, hs.2.2⟩
    refine ⟨hlength, hsup.symm, ?_, ?_, ?_⟩
    · rw [toFinset_concat, coreIds_insert, if_neg hcore, h.cores]
    · rw [toFinset_concat, countedSockets_insert, if_neg hnot]
      exact h.sockets
    · rw [toFinset_concat, countedSockets_insert, if_neg hnot]
      exact h.largest

/-- All blocks, of which only those of processors count. -/
theorem counts_foldl (blocks : List CpuBlock) :
    (blocks.foldl finalizeCpuBlock .none).Counts (processorBlocks blocks) := by
  induction blocks using List.reverseRecOn with
  | nil => exact counts_none
  | append_singleton blocks block ih =>
    rw [List.foldl_concat, processorBlocks, List.filter_append]
    cases hblock : block.hasProcessor with
    | true =>
      rw [List.filter_cons_of_pos hblock, List.filter_nil]
      exact ih.finalize hblock
    | false =>
      rw [List.filter_cons_of_neg (by simp [hblock]), List.filter_nil, List.append_nil,
        finalizeCpuBlock, hblock]
      exact ih

theorem sumSizes_eq (counts : List ℕ) : sumSizes counts = counts.sum % 2 ^ 64 := by
  induction counts using List.reverseRecOn with
  | nil => rfl
  | append_singleton counts count ih =>
    rw [sumSizes] at ih
    rw [sumSizes, List.foldl_concat, ih, List.sum_append, List.sum_singleton, Nat.mod_add_mod]

/-- The counts of a map, key by key. -/
theorem sum_entries (m : OrderedMap Bytes ℕ) : (m.entries.map Prod.snd).sum =
    ∑ key ∈ (m.entries.map Prod.fst).toFinset, (m.find? key).getD 0 := by
  rw [List.sum_toFinset _ m.nodup_keys, List.map_map]
  congr 1
  refine List.map_congr_left fun entry hentry => ?_
  rw [Function.comp_apply, OrderedMap.mem_entries_iff.mp hentry, Option.getD_some]

theorem mem_keys_iff (m : OrderedMap Bytes ℕ) (key : Bytes) :
    key ∈ (m.entries.map Prod.fst).toFinset ↔ (m.find? key).isSome := by
  rw [List.mem_toFinset, List.mem_map, Option.isSome_iff_exists]
  constructor
  · rintro ⟨⟨_, count⟩, hentry, rfl⟩
    exact ⟨count, OrderedMap.mem_entries_iff.mp hentry⟩
  · rintro ⟨count, hcount⟩
    exact ⟨(key, count), OrderedMap.mem_entries_iff.mpr hcount, rfl⟩

/-- Without cores that are told apart, every socket is counted. -/
theorem countedSockets_eq {blocks : Finset CpuBlock} (h : ¬ (coreIds blocks).Nonempty) :
    countedSockets blocks = socketBlocks blocks := by
  refine Finset.filter_congr fun block hblock => ?_
  constructor
  · rintro ⟨hphysical, -, hcores⟩
    exact ⟨hphysical, hcores⟩
  · rintro ⟨hphysical, hcores⟩
    refine ⟨hphysical, ?_, hcores⟩
    by_contra hcore
    exact h ⟨_, Finset.mem_image_of_mem _ (Finset.mem_filter.mpr ⟨hblock, hphysical, hcore⟩)⟩

theorem CpuTotals.Counts.physicalCores_eq {totals : CpuTotals} {processors : List CpuBlock}
    (h : totals.Counts processors) : totals.physicalCores = countCores processors := by
  rw [CpuTotals.physicalCores, countCores, h.cores, h.fallback, h.logical]
  by_cases hcores : (coreIds processors.toFinset).Nonempty
  · rw [if_pos hcores, if_pos hcores]
  · have hsockets := countedSockets_eq hcores
    have hkeys : (totals.socketCoreCounts.entries.map Prod.fst).toFinset =
        (socketBlocks processors.toFinset).image CpuBlock.physicalId := by
      ext id
      rw [mem_keys_iff, h.sockets, hsockets]
    have hentries : totals.socketCoreCounts.entries ≠ [] ↔
        (socketBlocks processors.toFinset).Nonempty := by
      rw [← Finset.image_nonempty (f := CpuBlock.physicalId), ← hkeys]
      simp
    have hsum : sumSizes (totals.socketCoreCounts.entries.map Prod.snd) =
        (∑ id ∈ (socketBlocks processors.toFinset).image CpuBlock.physicalId,
          socketCores processors.toFinset id) % 2 ^ 64 := by
      rw [sumSizes_eq, sum_entries, hkeys]
      congr 1
      refine Finset.sum_congr rfl fun id _ => ?_
      rw [h.largest, hsockets, socketCores]
    rw [if_neg hcores, if_neg hcores, if_congr hentries hsum rfl]

/-- The counts of a text are those of its blocks. -/
theorem parseCpuinfoSummary_counts (content : Bytes) :
    (parseCpuinfoSummary content).logicalProcessors =
        (processorBlocks ((cpuinfoBlocks content).map cpuBlock)).length ∧
      (parseCpuinfoSummary content).physicalCores =
        countCores (processorBlocks ((cpuinfoBlocks content).map cpuBlock)) := by
  have hcounts := counts_foldl ((cpuinfoBlocks content).map cpuBlock)
  rw [← finalize_parse] at hcounts
  exact ⟨hcounts.logical, hcounts.physicalCores_eq⟩

/-! ### Blocks joined by blank lines -/

/-- Lines that are not blank. -/
structure CpuinfoBlock where
  lines : List Bytes
  ne_nil : lines ≠ []
  filled : ∀ line ∈ lines, newline ∉ line ∧ isBlankLine line = false

/-- The lines between two blocks. -/
structure BlankLines where
  lines : List Bytes
  ne_nil : lines ≠ []
  blank : ∀ line ∈ lines, newline ∉ line ∧ isBlankLine line = true

/-- The lines of blocks, with `gap n` before the last `n` of them. -/
def joinBlocks (gap : ℕ → BlankLines) : List CpuinfoBlock → List Bytes
  | [] => []
  | [block] => block.lines
  | block :: next :: blocks =>
    block.lines ++ (gap (blocks.length + 1)).lines ++ joinBlocks gap (next :: blocks)

/-- The text of blocks. -/
def cpuinfoText (gap : ℕ → BlankLines) (blocks : List CpuinfoBlock) : Bytes :=
  [newline].intercalate (joinBlocks gap blocks)

/-- The blocks that are of a processor, as what they say. -/
def processorsOf (blocks : List CpuinfoBlock) : List CpuBlock :=
  (blocks.filter fun block => HasProcessor block.lines).map fun block => cpuBlock block.lines

section

variable (gap : ℕ → BlankLines)

theorem newline_notMem_joinBlocks (blocks : List CpuinfoBlock) :
    ∀ line ∈ joinBlocks gap blocks, newline ∉ line := by
  induction blocks with
  | nil => simp [joinBlocks]
  | cons block blocks ih =>
    cases blocks with
    | nil => exact fun line hline => (block.filled line hline).1
    | cons next blocks =>
      rw [joinBlocks, List.forall_mem_append, List.forall_mem_append]
      exact ⟨⟨fun line hline => (block.filled line hline).1,
        fun line hline => ((gap _).blank line hline).1⟩, ih⟩

/-- The processors among the blocks between blank lines. -/
def processorsIn (lines : List Bytes) : List CpuBlock :=
  processorBlocks ((lines.splitOnP isBlankLine).map cpuBlock)

theorem processorsIn_append_blank (block : List Bytes) {line : Bytes}
    (hline : isBlankLine line = true) (lines : List Bytes) :
    processorsIn (block ++ line :: lines) = processorsIn block ++ processorsIn lines := by
  rw [processorsIn, List.splitOnP_append_cons _ _ hline, List.map_append, processorBlocks,
    List.filter_append]
  rfl

theorem processorsIn_blank {blank : List Bytes} (h : ∀ line ∈ blank, isBlankLine line = true)
    (lines : List Bytes) : processorsIn (blank ++ lines) = processorsIn lines := by
  induction blank with
  | nil => rfl
  | cons line blank ih =>
    rw [List.forall_mem_cons] at h
    have hsplit := processorsIn_append_blank [] h.1 (blank ++ lines)
    rw [List.nil_append] at hsplit
    rw [List.cons_append, hsplit, ih h.2]
    rfl

theorem processorsIn_block (block : CpuinfoBlock) :
    processorsIn block.lines = processorsOf [block] := by
  rw [processorsIn, List.splitOnP_eq_singleton fun line hline => (block.filled line hline).2]
  by_cases h : HasProcessor block.lines
  · simp [processorBlocks, processorsOf, cpuBlock, h]
  · simp [processorBlocks, processorsOf, cpuBlock, h]

theorem processorsIn_joinBlocks (blocks : List CpuinfoBlock) :
    processorsIn (joinBlocks gap blocks) = processorsOf blocks := by
  induction blocks with
  | nil => rfl
  | cons block blocks ih =>
    cases blocks with
    | nil => exact processorsIn_block block
    | cons next blocks =>
      obtain ⟨line, blank, hgap⟩ := List.exists_cons_of_ne_nil (gap (blocks.length + 1)).ne_nil
      have hblank := (gap (blocks.length + 1)).blank
      rw [hgap, List.forall_mem_cons] at hblank
      have hof : processorsOf (block :: next :: blocks) =
          processorsOf [block] ++ processorsOf (next :: blocks) := by
        rw [processorsOf, ← List.singleton_append, List.filter_append, List.map_append]
        rfl
      rw [joinBlocks, hgap, List.append_assoc, List.cons_append,
        processorsIn_append_blank _ hblank.1.2,
        processorsIn_blank fun line hline => (hblank.2 line hline).2, ih, processorsIn_block, hof]

theorem parse_cpuinfoText (blocks : List CpuinfoBlock) :
    (parseCpuinfoSummary (cpuinfoText gap blocks)).logicalProcessors =
        (blocks.filter fun block => HasProcessor block.lines).length ∧
      (parseCpuinfoSummary (cpuinfoText gap blocks)).physicalCores =
        countCores (processorsOf blocks) := by
  have hlines : processorsIn (lines (cpuinfoText gap blocks)) = processorsOf blocks := by
    rw [← processorsIn_joinBlocks gap]
    by_cases hnil : joinBlocks gap blocks = []
    · rw [cpuinfoText, hnil]
      rfl
    · rw [cpuinfoText, lines,
        List.splitOn_intercalate _ (newline_notMem_joinBlocks gap blocks) hnil]
  obtain ⟨hlogical, hphysical⟩ := parseCpuinfoSummary_counts (cpuinfoText gap blocks)
  change _ = (processorsIn (lines (cpuinfoText gap blocks))).length at hlogical
  change _ = countCores (processorsIn (lines (cpuinfoText gap blocks))) at hphysical
  rw [hlogical, hphysical, hlines]
  exact ⟨List.length_map .., rfl⟩

end

theorem countCores_perm {processors processors' : List CpuBlock}
    (h : processors.Perm processors') : countCores processors = countCores processors' := by
  rw [countCores, countCores, List.toFinset_eq_of_perm _ _ h, h.length_eq]

theorem processorsOf_perm {blocks blocks' : List CpuinfoBlock} (h : blocks.Perm blocks') :
    (processorsOf blocks).Perm (processorsOf blocks') :=
  (h.filter _).map _

/-- The counts are those of the blocks, whatever blank lines are between them, and do not depend
on their order. -/
theorem cpuinfo_counts :
    (∀ (gap : ℕ → BlankLines) (blocks : List CpuinfoBlock),
      (parseCpuinfoSummary (cpuinfoText gap blocks)).logicalProcessors =
          (blocks.filter fun block => HasProcessor block.lines).length ∧
        (parseCpuinfoSummary (cpuinfoText gap blocks)).physicalCores =
          countCores (processorsOf blocks)) ∧
    ∀ (gap gap' : ℕ → BlankLines) (blocks blocks' : List CpuinfoBlock), blocks.Perm blocks' →
      (parseCpuinfoSummary (cpuinfoText gap blocks)).logicalProcessors =
          (parseCpuinfoSummary (cpuinfoText gap' blocks')).logicalProcessors ∧
        (parseCpuinfoSummary (cpuinfoText gap blocks)).physicalCores =
          (parseCpuinfoSummary (cpuinfoText gap' blocks')).physicalCores := by
  refine ⟨fun gap blocks => parse_cpuinfoText gap blocks, fun gap gap' blocks blocks' hperm => ?_⟩
  obtain ⟨hlogical, hphysical⟩ := parse_cpuinfoText gap blocks
  obtain ⟨hlogical', hphysical'⟩ := parse_cpuinfoText gap' blocks'
  rw [hlogical, hphysical, hlogical', hphysical']
  exact ⟨(hperm.filter _).length_eq, countCores_perm (processorsOf_perm hperm)⟩

/-- One processor of a socket with eight cores. -/
def firstSocket : CpuinfoBlock where
  lines := [ascii "processor : 0", ascii "physical id : 0", ascii "cpu cores : 8"]
  ne_nil := List.cons_ne_nil _ _
  filled := by decide +kernel

def secondSocket : CpuinfoBlock where
  lines := [ascii "processor : 1", ascii "physical id : 1", ascii "cpu cores : 8"]
  ne_nil := List.cons_ne_nil _ _
  filled := by decide +kernel

def emptyLine : BlankLines := ⟨[[]], List.cons_ne_nil _ _, by decide⟩

theorem cpuinfo_counts_sockets :
    ((parseCpuinfoSummary (cpuinfoText (fun _ => emptyLine) [firstSocket])).logicalProcessors =
        ([firstSocket].filter fun block => HasProcessor block.lines).length ∧
      (parseCpuinfoSummary (cpuinfoText (fun _ => emptyLine) [firstSocket])).physicalCores =
        countCores (processorsOf [firstSocket])) ∧
    (parseCpuinfoSummary
        (cpuinfoText (fun _ => emptyLine) [secondSocket, firstSocket])).logicalProcessors =
      (parseCpuinfoSummary
        (cpuinfoText (fun _ => emptyLine) [firstSocket, secondSocket])).logicalProcessors ∧
    (parseCpuinfoSummary
        (cpuinfoText (fun _ => emptyLine) [secondSocket, firstSocket])).physicalCores =
      (parseCpuinfoSummary
        (cpuinfoText (fun _ => emptyLine) [firstSocket, secondSocket])).physicalCores :=
  ⟨cpuinfo_counts.1 _ _, cpuinfo_counts.2 _ _ _ _ (.swap firstSocket secondSocket [])⟩

/-- Without core ids the cores of the sockets are added up. -/
example : (parseCpuinfoSummary
    (cpuinfoText (fun _ => emptyLine) [firstSocket, secondSocket])).physicalCores = 16 := by
  decide +kernel

end Kasli.Tools.Hardware
