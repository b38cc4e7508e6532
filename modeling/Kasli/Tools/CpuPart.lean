import Kasli.Text.CutLines
import Kasli.Tools.CpuCounts
import Kasli.Tools.HardwareProvider

/-! What is counted when only a part of `/proc/cpuinfo` is read. The number of processors is right
exactly when each block that is of a processor says so in the part that is read. -/

namespace Kasli.Tools.Hardware

/-! ### Blocks of a text that is cut -/

/-- The line has the key `processor`. -/
def IsProcessorLine (line : Bytes) : Prop :=
  ∃ item ∈ parseKeyValueLine line, item.1 = ascii "processor"

theorem not_hasProcessor_nil : ¬ HasProcessor [] := by simp [HasProcessor, blockItems]

theorem hasProcessor_cons (line : Bytes) (block : List Bytes) :
    HasProcessor (line :: block) ↔ IsProcessorLine line ∨ HasProcessor block := by
  rw [HasProcessor, HasProcessor, blockItems, IsProcessorLine]
  cases h : parseKeyValueLine line with
  | none => simp [h, blockItems]
  | some item => simp [h, blockItems]

/-- The key of a line does not change when more follows. -/
theorem IsProcessorLine.append {line : Bytes} (h : IsProcessorLine line) (more : Bytes) :
    IsProcessorLine (line ++ more) := by
  obtain ⟨⟨key, value⟩, hitem, hkey⟩ := h
  obtain ⟨separator, hseparator, hitem⟩ := Option.bind_eq_some_iff.mp hitem
  obtain ⟨rfl, -⟩ := Prod.mk.inj (Option.some.inj hitem)
  obtain ⟨hlt, hcolon, hbefore⟩ := List.idxOf?_eq_some_iff.mp hseparator
  have hmore : (line ++ more).idxOf? (chr ':') = some separator := by
    rw [List.idxOf?_eq_some_iff]
    refine ⟨by rw [List.length_append]; omega, ?_, fun n hn => ?_⟩
    · rwa [List.getElem_append_left hlt]
    · rw [List.getElem_append_left (by omega)]
      exact hbefore n hn
  refine ⟨(trim ((line ++ more).take separator), trim ((line ++ more).drop (separator + 1))), ?_,
    ?_⟩
  · rw [parseKeyValueLine, hmore]
    rfl
  · rw [List.take_append_of_le_length (by omega)]
    exact hkey

theorem isBlankLine_iff (line : Bytes) : isBlankLine line = true ↔ ∀ b ∈ line, isTrail b := by
  have hindent (b : UInt8) (hb : isIndent b = true) : isTrail b = true := by
    rw [isTrail, hb, Bool.or_true]
  have hnil := @List.rdropWhile_eq_nil_iff _ isTrail line
  rw [isBlankLine, decide_eq_true_iff, trim, ← hnil]
  constructor
  · intro h
    by_contra hne
    have hlast := List.dropWhile_eq_nil_iff.mp h _ (List.getLast_mem hne)
    exact List.rdropWhile_last_not isTrail line hne (hindent _ hlast)
  · intro h
    rw [h]
    rfl

/-- The `n`th block is of a processor. -/
def ProcessorAt (blocks : List (List Bytes)) (n : ℕ) : Prop :=
  ∃ block ∈ blocks[n]?, HasProcessor block

instance (blocks : List (List Bytes)) (n : ℕ) : Decidable (ProcessorAt blocks n) :=
  inferInstanceAs (Decidable (∃ block ∈ blocks[n]?, HasProcessor block))

theorem processorAt_zero (block : List Bytes) (blocks : List (List Bytes)) :
    ProcessorAt (block :: blocks) 0 ↔ HasProcessor block := by simp [ProcessorAt]

theorem processorAt_succ (block : List Bytes) (blocks : List (List Bytes)) (n : ℕ) :
    ProcessorAt (block :: blocks) (n + 1) ↔ ProcessorAt blocks n := by simp [ProcessorAt]

/-- A part of a line is of a processor only when the line is. -/
theorem processorAt_cons_of_part {part whole : Bytes} (hpart : part <+: whole)
    (after : List Bytes) (n : ℕ) (h : ProcessorAt ([part].splitOnP isBlankLine) n) :
    ProcessorAt ((whole :: after).splitOnP isBlankLine) n := by
  obtain ⟨first, blocks, hafter⟩ := List.exists_cons_of_ne_nil
    (List.splitOnP_ne_nil isBlankLine after)
  rw [List.splitOnP_cons_eq_if_modifyHead, List.splitOnP_nil] at h
  split_ifs at h with hblank
  · -- a blank line ends a block in which nothing was said
    obtain ⟨block, hblock, hprocessor⟩ := h
    have hmem := List.mem_of_getElem? hblock
    rw [List.mem_cons, List.mem_singleton, or_self] at hmem
    exact absurd (hmem ▸ hprocessor) not_hasProcessor_nil
  · have hfilled : ¬ isBlankLine whole = true := fun hwhole => hblank
      ((isBlankLine_iff part).mpr fun b hb => (isBlankLine_iff whole).mp hwhole b
        (hpart.subset hb))
    rw [List.splitOnP_cons_eq_if_modifyHead, if_neg hfilled, hafter]
    cases n with
    | zero =>
      obtain ⟨more, rfl⟩ := hpart
      rw [List.modifyHead_cons, processorAt_zero, hasProcessor_cons] at h ⊢
      exact .inl ((h.resolve_right not_hasProcessor_nil).append more)
    | succ n =>
      rw [List.modifyHead_cons, processorAt_succ] at h
      obtain ⟨block, hblock, -⟩ := h
      cases hblock

/-- A block of which a part is there is of a processor when the part is. -/
theorem processorAt_append (before : List Bytes) {part whole : Bytes} (hpart : part <+: whole)
    (after : List Bytes) (n : ℕ)
    (h : ProcessorAt ((before ++ [part]).splitOnP isBlankLine) n) :
    ProcessorAt ((before ++ whole :: after).splitOnP isBlankLine) n := by
  induction before generalizing n with
  | nil => exact processorAt_cons_of_part hpart after n h
  | cons line before ih =>
    rw [List.cons_append, List.splitOnP_cons_eq_if_modifyHead] at h ⊢
    obtain ⟨first, blocks, hcons⟩ := List.exists_cons_of_ne_nil
      (List.splitOnP_ne_nil isBlankLine (before ++ [part]))
    obtain ⟨first', blocks', hwhole⟩ := List.exists_cons_of_ne_nil
      (List.splitOnP_ne_nil isBlankLine (before ++ whole :: after))
    rw [hcons] at h ih
    rw [hwhole] at ih ⊢
    split_ifs at h ⊢
    · cases n with
      | zero => exact absurd ((processorAt_zero _ _).mp h) not_hasProcessor_nil
      | succ n => exact (processorAt_succ _ _ _).mpr (ih n ((processorAt_succ _ _ _).mp h))
    · cases n with
      | zero =>
        have hfirst := ih 0
        rw [processorAt_zero, processorAt_zero] at hfirst
        rw [List.modifyHead_cons, processorAt_zero, hasProcessor_cons] at h ⊢
        exact h.imp id hfirst
      | succ n =>
        have hnext := ih (n + 1)
        rw [processorAt_succ, processorAt_succ] at hnext
        rw [List.modifyHead_cons, processorAt_succ] at h ⊢
        exact hnext h

/-! ### How many processors are lost -/

def processorCount (blocks : List (List Bytes)) : ℕ := blocks.countP fun block => HasProcessor block

theorem processorCount_cons (block : List Bytes) (blocks : List (List Bytes)) :
    processorCount (block :: blocks) =
      processorCount blocks + if HasProcessor block then 1 else 0 := by
  simp [processorCount, List.countP_cons]

theorem processorCount_eq_zero_iff {blocks : List (List Bytes)} :
    processorCount blocks = 0 ↔ ∀ n, ¬ ProcessorAt blocks n := by
  rw [processorCount, List.countP_eq_zero]
  constructor
  · rintro h n ⟨block, hblock, hprocessor⟩
    exact h block (List.mem_of_getElem? hblock) (decide_eq_true hprocessor)
  · intro h block hblock hprocessor
    obtain ⟨n, hn⟩ := List.getElem?_of_mem hblock
    exact h n ⟨block, hn, of_decide_eq_true hprocessor⟩

theorem forall_processorAt_cons {P : ℕ → Prop} (block : List Bytes) (blocks : List (List Bytes)) :
    (∀ n, ProcessorAt (block :: blocks) n → P n) ↔
      (HasProcessor block → P 0) ∧ ∀ n, ProcessorAt blocks n → P (n + 1) := by
  constructor
  · intro h
    exact ⟨fun hb => h 0 ((processorAt_zero _ _).mpr hb),
      fun n hn => h (n + 1) ((processorAt_succ _ _ _).mpr hn)⟩
  · rintro ⟨hzero, hsucc⟩ n hn
    cases n with
    | zero => exact hzero ((processorAt_zero _ _).mp hn)
    | succ n => exact hsucc n ((processorAt_succ _ _ _).mp hn)

/-- When no place is of a processor only in the first list, the lists have as many processors
exactly when no place is of a processor only in the second. -/
theorem processorCount_eq_iff {blocks blocks' : List (List Bytes)}
    (h : ∀ n, ProcessorAt blocks n → ProcessorAt blocks' n) :
    processorCount blocks ≤ processorCount blocks' ∧
      (processorCount blocks = processorCount blocks' ↔
        ∀ n, ProcessorAt blocks' n → ProcessorAt blocks n) := by
  have hnil (n : ℕ) : ¬ ProcessorAt [] n := by simp [ProcessorAt]
  induction blocks generalizing blocks' with
  | nil =>
    have hzero := @processorCount_eq_zero_iff blocks'
    refine ⟨Nat.zero_le _, eq_comm.trans (hzero.trans ?_)⟩
    exact forall_congr' fun n => ⟨fun hn hp => absurd hp hn, fun hn hp => hnil n (hn hp)⟩
  | cons block blocks ih =>
    cases blocks' with
    | nil =>
      have hzero : processorCount (block :: blocks) = 0 :=
        processorCount_eq_zero_iff.mpr fun n hn => hnil n (h n hn)
      rw [hzero]
      exact ⟨Nat.le_refl _, iff_of_true rfl fun n hn => absurd hn (hnil n)⟩
    | cons block' blocks' =>
      rw [forall_processorAt_cons, processorAt_zero] at h
      simp only [processorAt_succ] at h
      obtain ⟨hle, hiff⟩ := ih h.2
      rw [forall_processorAt_cons, processorAt_zero, processorCount_cons, processorCount_cons]
      simp only [processorAt_succ]
      rw [← hiff]
      by_cases hb : HasProcessor block
      · have hb' := h.1 hb
        simp only [hb, hb', if_true, forall_const, true_and]
        omega
      · by_cases hb' : HasProcessor block'
        · simp only [hb, hb', if_true, if_false, forall_const, false_and, iff_false]
          omega
        · simp only [hb, hb', if_false, false_imp_iff, true_and]
          omega

/-! ### The part that is read -/

theorem readFileContents_isPrefix (content : Bytes) :
    readFileContents (some content) <+: content := by
  have htake : content.take (maxHardwareInputBytes + 1) <+: content := List.take_prefix _ _
  simp only [readFileContents, truncateHardwareInput, Option.getD_some]
  split_ifs
  · exact htake
  · exact (List.take_prefix _ _).trans htake
  · exact ((List.rdropWhile_prefix _ _).trans (List.take_prefix _ _)).trans htake

/-- Every block that is of a processor says so in the part that is read. -/
def KeepsProcessors (content : Bytes) : Prop :=
  ∀ n, ProcessorAt (cpuinfoBlocks content) n →
    ProcessorAt (cpuinfoBlocks (readFileContents (some content))) n

theorem logicalProcessors_eq_processorCount (text : Bytes) :
    (parseCpuinfoSummary text).logicalProcessors = processorCount (cpuinfoBlocks text) := by
  rw [(parseCpuinfoSummary_counts text).1, processorBlocks, processorCount,
    List.countP_eq_length_filter, List.filter_map, List.length_map]
  rfl

/-- The number that is told is right exactly when no processor is lost. -/
theorem logicalProcessors_eq_iff (content : Bytes) :
    (parseCpuinfoSummary (readFileContents (some content))).logicalProcessors =
      processorCount (cpuinfoBlocks content) ↔ KeepsProcessors content := by
  obtain ⟨before, part, line, after, hread, hwhole, hprefix⟩ :=
    lines_of_isPrefix (readFileContents_isPrefix content)
  rw [logicalProcessors_eq_processorCount]
  refine (processorCount_eq_iff fun n hn => ?_).2
  rw [cpuinfoBlocks, hread] at hn
  rw [cpuinfoBlocks, hwhole]
  exact processorAt_append before hprefix after n hn

end Kasli.Tools.Hardware
