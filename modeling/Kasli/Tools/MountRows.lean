import Kasli.Tools.MountLines

/-! Which mounts are listed. The mount points below `/proc`, `/sys` and `/dev` are to be left out;
the code leaves out those that begin with these texts, so that a filesystem at `/sysroot` is not
listed either, and the line of a mount without a source is misread. Nothing else is lost: there is
one row for each other line of a real filesystem that can be measured. -/

namespace Kasli.Tools.Disk

/-! ### Real filesystems -/

/-- Where no real filesystem is expected. -/
def excludedRoots : List Bytes := [ascii "/proc", ascii "/sys", ascii "/dev"]

/-- The path is the directory or leads below it. -/
def AtOrBelow (root path : Bytes) : Prop := path = root ∨ root ++ ascii "/" <+: path

instance (root path : Bytes) : Decidable (AtOrBelow root path) :=
  inferInstanceAs (Decidable (_ ∨ _))

/-- A mount that is to be listed. -/
def IsReal (mount : DiskMountInfo) : Prop :=
  mount.mountPoint ≠ [] ∧ mount.fsType ∉ virtualTypes ∧
    ∀ root ∈ excludedRoots, ¬ AtOrBelow root mount.mountPoint

instance (mount : DiskMountInfo) : Decidable (IsReal mount) :=
  inferInstanceAs (Decidable (_ ∧ _ ∧ ∀ root ∈ excludedRoots, ¬ AtOrBelow root _))

/-- A mount that is to be listed, at a path that merely begins like an excluded one. -/
def IsMistaken (mount : DiskMountInfo) : Prop :=
  IsReal mount ∧ ∃ root ∈ excludedRoots, root <+: mount.mountPoint

instance (mount : DiskMountInfo) : Decidable (IsMistaken mount) :=
  inferInstanceAs (Decidable (_ ∧ ∃ root ∈ excludedRoots, root <+: _))

theorem isPrefix_of_atOrBelow {root path : Bytes} (h : AtOrBelow root path) : root <+: path := by
  rcases h with rfl | h
  · exact List.prefix_rfl
  · exact (List.prefix_append root (ascii "/")).trans h

/-- The candidates are the real filesystems but for those that are mistaken. -/
theorem isDiskUsageMountCandidate_iff {mount : DiskMountInfo} (h : mount.fsType ≠ []) :
    isDiskUsageMountCandidate mount = true ↔ IsReal mount ∧ ¬ IsMistaken mount := by
  have hbegins : (ascii "/proc" <+: mount.mountPoint ∨ ascii "/sys" <+: mount.mountPoint ∨
      ascii "/dev" <+: mount.mountPoint) ↔ ∃ root ∈ excludedRoots, root <+: mount.mountPoint := by
    simp [excludedRoots]
  have hbelow (hroot : ¬ ∃ root ∈ excludedRoots, root <+: mount.mountPoint) :
      ∀ root ∈ excludedRoots, ¬ AtOrBelow root mount.mountPoint :=
    fun root hmem hat => hroot ⟨root, hmem, isPrefix_of_atOrBelow hat⟩
  rw [isDiskUsageMountCandidate, if_congr hbegins rfl rfl]
  split_ifs with hempty hvirtual hroot
  · simp only [false_iff]
    exact fun hreal => hempty.elim hreal.1.1 h
  · simp only [false_iff]
    exact fun hreal => hreal.1.2.1 hvirtual
  · simp only [false_iff]
    exact fun hreal => hreal.2 ⟨hreal.1, hroot⟩
  · simp only [true_iff]
    exact ⟨⟨fun hnil => hempty (.inl hnil), hvirtual, hbelow hroot⟩, fun hm => hroot hm.2⟩

/-- Only the mount point and the type count. -/
theorem isReal_congr {mount mount' : DiskMountInfo} (hpoint : mount.mountPoint = mount'.mountPoint)
    (htype : mount.fsType = mount'.fsType) : IsReal mount ↔ IsReal mount' := by
  rw [IsReal, IsReal, hpoint, htype]

/-! ### Mount lines -/

open Classical in
/-- The mount that a line describes, whatever is read of it. -/
noncomputable def mountOf (line : Bytes) : Option DiskMountInfo :=
  if h : ∃ mount : MountLine, mount.text = line then some h.choose.info else none

theorem mountOf_text (mount : MountLine) : mountOf mount.text = some mount.info := by
  have h : ∃ other : MountLine, other.text = mount.text := ⟨mount, rfl⟩
  rw [mountOf, dif_pos h, MountLine.info_eq_of_text_eq h.choose_spec]

/-- A line describes a mount when it is written of one. -/
theorem exists_text_of_isSome {line : Bytes} (h : (mountOf line).isSome) :
    ∃ mount : MountLine, mount.text = line := by
  by_contra hnot
  rw [mountOf, dif_neg hnot] at h
  cases h

/-- The lines that describe a mount. -/
noncomputable def mountLines (mountinfo : Bytes) : List Bytes :=
  (getLines mountinfo).filter fun line => (mountOf line).isSome

/-! ### Rows -/

section

variable (quotient : ℕ → ℕ → Int)

/-- The row of a mount that was measured. -/
def usageRow (mount : DiskMountInfo) (space : SpaceInfo) : DiskUsageRow :=
  { mountPoint := mount.mountPoint, fsType := mount.fsType, source := mount.source,
    capacityBytes := space.capacity, freeBytes := space.free, availableBytes := space.available,
    usedPercent := usedPercent quotient space.capacity space.available }

/-- The row of a line, when the line is of a real filesystem and `space` measures it. -/
noncomputable def realRow (space : Bytes → Option SpaceInfo) (line : Bytes) :
    Option DiskUsageRow := do
  let mount ← mountOf line
  if IsReal mount then
    return usageRow quotient mount (← space mount.mountPoint)
  else none

/-- The lines with a real filesystem that is measured, but has no source or is mistaken. -/
def IsHidden (space : Bytes → Option SpaceInfo) (line : Bytes) : Prop :=
  ∃ mount : MountLine, mount.text = line ∧ IsReal mount.info ∧ (space mount.mountPoint).isSome ∧
    (mount.source = [] ∨ IsMistaken mount.info)

/-- The row that a hidden line should have is no row of the provider. -/
def IsMissing (row : DiskUsageRow) : Prop :=
  row.source = [] ∨ ∃ root ∈ excludedRoots, root <+: row.mountPoint

theorem lineRow_eq_some_iff {space : Bytes → Option SpaceInfo} {line : Bytes} {row : DiskUsageRow} :
    lineRow quotient space line = some row ↔ ∃ mount, parseMountinfoLine line = some mount ∧
      (IsReal mount ∧ ¬ IsMistaken mount) ∧
        ∃ info, space mount.mountPoint = some info ∧ row = usageRow quotient mount info := by
  cases hparse : parseMountinfoLine line with
  | none => simp [lineRow, hparse]
  | some mount =>
    have hcandidate := isDiskUsageMountCandidate_iff (parseMountinfoLine_ne_nil hparse).2.1
    simp only [lineRow, hparse, Option.bind_eq_bind, Option.bind_some, Option.some_inj,
      exists_eq_left', ← hcandidate]
    cases isDiskUsageMountCandidate mount with
    | false => simp
    | true =>
      cases space mount.mountPoint with
      | none => simp
      | some info => simp [usageRow, eq_comm]

theorem not_isMissing {space : Bytes → Option SpaceInfo} {line : Bytes} {row : DiskUsageRow}
    (h : lineRow quotient space line = some row) : ¬ IsMissing row := by
  obtain ⟨mount, hparse, ⟨hreal, hmistaken⟩, info, -, rfl⟩ := (lineRow_eq_some_iff quotient).mp h
  rintro (hsource | hroot)
  · exact (parseMountinfoLine_ne_nil hparse).2.2 hsource
  · exact hmistaken ⟨hreal, hroot⟩

theorem realRow_text (space : Bytes → Option SpaceInfo) (mount : MountLine) :
    realRow quotient space mount.text = if IsReal mount.info then
      (space mount.mountPoint).map (usageRow quotient mount.info) else none := by
  rw [realRow, mountOf_text, Option.bind_eq_bind, Option.bind_some]
  split_ifs
  · cases h : space mount.mountPoint with
    | none => exact congrArg (Option.bind · _) h
    | some info => exact congrArg (Option.bind · _) h
  · rfl

/-- The row of a hidden line is missing. -/
theorem realRow_of_isHidden {space : Bytes → Option SpaceInfo} {line : Bytes}
    (h : IsHidden space line) : ∃ row, realRow quotient space line = some row ∧ IsMissing row := by
  obtain ⟨mount, rfl, hreal, hspace, hwhy⟩ := h
  obtain ⟨info, hinfo⟩ := Option.isSome_iff_exists.mp hspace
  refine ⟨usageRow quotient mount.info info, ?_, hwhy.imp id And.right⟩
  rw [realRow_text, if_pos hreal, hinfo]
  rfl

/-- A mount line that is not hidden has the row that it should have. -/
theorem lineRow_text {space : Bytes → Option SpaceInfo} {mount : MountLine}
    (h : ¬ IsHidden space mount.text) :
    lineRow quotient space mount.text = realRow quotient space mount.text := by
  refine Option.ext fun row => ?_
  rw [realRow_text, lineRow_eq_some_iff]
  constructor
  · rintro ⟨info, hparse, ⟨hreal, hmistaken⟩, measured, hspace, rfl⟩
    obtain ⟨hpoint, htype⟩ := mount.parse_text_names hparse
    have hreal' : IsReal mount.info := (isReal_congr hpoint htype).mp hreal
    rw [hpoint] at hspace
    have hsource : mount.source ≠ [] := fun hnil =>
      h ⟨mount, rfl, hreal', Option.isSome_of_eq_some hspace, .inl hnil⟩
    rw [mount.parse_text hsource] at hparse
    rw [if_pos hreal', hspace, Option.some.inj hparse]
    rfl
  · intro hrow
    split_ifs at hrow with hreal
    obtain ⟨measured, hspace, rfl⟩ := Option.map_eq_some_iff.mp hrow
    have hisSome := Option.isSome_of_eq_some hspace
    exact ⟨mount.info, mount.parse_text fun hnil => h ⟨mount, rfl, hreal, hisSome, .inl hnil⟩,
      ⟨hreal, fun hmistaken => h ⟨mount, rfl, hreal, hisSome, .inr hmistaken⟩⟩,
        measured, hspace, rfl⟩

/-- The rows that a text is to give. -/
noncomputable def realRows (space : ℕ → Bytes → Option SpaceInfo) (mountinfo : Bytes) :
    List DiskUsageRow :=
  (getLines mountinfo).zipIdx.filterMap fun line => realRow quotient (space line.2) line.1

/-- The rows are those that the text is to give, by their mount points. -/
def ListsReal (space : ℕ → Bytes → Option SpaceInfo) (mountinfo : Bytes)
    (rows : List DiskUsageRow) : Prop :=
  rows.Perm (realRows quotient space mountinfo) ∧
    rows.Pairwise fun left right => ¬ byMountPoint right left

/-- The lines that are given a row, each with its row. -/
def rowedLines (space : ℕ → Bytes → Option SpaceInfo) (mountinfo : Bytes) :
    List (Bytes × DiskUsageRow) :=
  (getLines mountinfo).zipIdx.filterMap fun line =>
    (lineRow quotient (space line.2) line.1).map fun row => (line.1, row)

/-- What lines that describe no mount have of the first hundred rows, the mount lines lose after
them. Where there are no more than a hundred rows, no other line is given one. -/
def OthersReplace (space : ℕ → Bytes → Option SpaceInfo) (mountinfo : Bytes) : Prop :=
  ((((rowedLines quotient space mountinfo).take maxDiskUsageRows).filter fun p =>
    !(mountOf p.1).isSome).map Prod.snd).Perm
    ((((rowedLines quotient space mountinfo).drop maxDiskUsageRows).filter fun p =>
      (mountOf p.1).isSome).map Prod.snd)

theorem map_rowedLines (space : ℕ → Bytes → Option SpaceInfo) (mountinfo : Bytes) :
    (rowedLines quotient space mountinfo).map Prod.snd = mountRows quotient space mountinfo := by
  rw [rowedLines, mountRows, List.map_filterMap]
  simp only [Option.map_map]
  exact List.filterMap_congr fun line _ => congrFun Option.map_id _

/-- With nothing hidden, the rows are those of the mount lines. -/
theorem realRows_eq {space : ℕ → Bytes → Option SpaceInfo} {mountinfo : Bytes}
    (h : ∀ line ∈ (getLines mountinfo).zipIdx, ¬ IsHidden (space line.2) line.1) :
    realRows quotient space mountinfo = ((rowedLines quotient space mountinfo).filter fun p =>
      (mountOf p.1).isSome).map Prod.snd := by
  rw [rowedLines, List.filter_filterMap, List.map_filterMap, realRows]
  refine List.filterMap_congr fun line hline => ?_
  by_cases hmount : (mountOf line.1).isSome
  · obtain ⟨mount, hmount'⟩ := exists_text_of_isSome hmount
    have hrow := h line hline
    rw [← hmount'] at hrow
    rw [← hmount', ← lineRow_text quotient hrow]
    cases lineRow quotient (space line.2) mount.text with
    | none => rfl
    | some row => simp [hmount', hmount]
  · have hnone : mountOf line.1 = none := Option.not_isSome_iff_eq_none.mp hmount
    rw [realRow, hnone]
    cases lineRow quotient (space line.2) line.1 with
    | none => rfl
    | some row => simp [hnone]

/-- The rows are as many as fit, by their mount points. -/
theorem diskUsageProvider_rows (sorting : Sorting byMountPoint)
    (space : ℕ → Bytes → Option SpaceInfo) (mountinfo : Bytes) :
    (diskUsageProvider quotient sorting space (some mountinfo)).rows =
      sorting.sort (((rowedLines quotient space mountinfo).take maxDiskUsageRows).map
        Prod.snd) := by
  rw [diskUsageProvider, collect_eq, ← map_rowedLines, List.map_take]

/-- A hidden line has no row. -/
theorem not_isHidden (sorting : Sorting byMountPoint) {space : ℕ → Bytes → Option SpaceInfo}
    {mountinfo : Bytes} (h : ListsReal quotient space mountinfo
      (diskUsageProvider quotient sorting space (some mountinfo)).rows) :
    ∀ line ∈ (getLines mountinfo).zipIdx, ¬ IsHidden (space line.2) line.1 := by
  intro line hline hhidden
  obtain ⟨row, hrow, hmissing⟩ := realRow_of_isHidden quotient hhidden
  have hreal : row ∈ realRows quotient space mountinfo :=
    List.mem_filterMap.mpr ⟨line, hline, hrow⟩
  rw [← h.1.mem_iff, diskUsageProvider_rows, (sorting.perm _).mem_iff, List.map_take,
    map_rowedLines] at hreal
  obtain ⟨other, -, hother⟩ := List.mem_filterMap.mp (List.mem_of_mem_take hreal)
  exact not_isMissing quotient hother hmissing

/-- With nothing hidden, the rows that fit differ from those that the text is to give by what other
lines take and the mount lines lose. -/
theorem perm_realRows_iff {space : ℕ → Bytes → Option SpaceInfo} {mountinfo : Bytes}
    (h : ∀ line ∈ (getLines mountinfo).zipIdx, ¬ IsHidden (space line.2) line.1) :
    (((rowedLines quotient space mountinfo).take maxDiskUsageRows).map Prod.snd).Perm
      (realRows quotient space mountinfo) ↔ OthersReplace quotient space mountinfo := by
  have hfirst := (List.filter_append_perm (fun p => (mountOf p.1).isSome)
    ((rowedLines quotient space mountinfo).take maxDiskUsageRows)).map Prod.snd
  rw [List.map_append] at hfirst
  have hreal : realRows quotient space mountinfo =
      (((rowedLines quotient space mountinfo).take maxDiskUsageRows).filter fun p =>
        (mountOf p.1).isSome).map Prod.snd ++
      (((rowedLines quotient space mountinfo).drop maxDiskUsageRows).filter fun p =>
        (mountOf p.1).isSome).map Prod.snd := by
    rw [← List.map_append, ← List.filter_append, List.take_append_drop, realRows_eq quotient h]
  rw [hreal, OthersReplace]
  constructor
  · exact fun hperm => (List.perm_append_left_iff _).mp (hfirst.trans hperm)
  · exact fun hothers => hfirst.symm.trans ((List.perm_append_left_iff _).mpr hothers)

theorem length_rowedLines_le {space : ℕ → Bytes → Option SpaceInfo} {mountinfo : Bytes}
    (h : ∀ p ∈ rowedLines quotient space mountinfo, (mountOf p.1).isSome) :
    (rowedLines quotient space mountinfo).length ≤ (mountLines mountinfo).length := by
  have hlines : (getLines mountinfo).zipIdx.map Prod.fst = getLines mountinfo :=
    List.zipIdx_map_fst 0 _
  rw [rowedLines, mountLines, List.length_filterMap_eq_countP, ← List.countP_eq_length_filter]
  conv_rhs => rw [← hlines, List.countP_map]
  refine List.countP_mono_left fun line hline hrow => ?_
  obtain ⟨p, hp⟩ := Option.isSome_iff_exists.mp hrow
  obtain ⟨row, -, rfl⟩ := Option.map_eq_some_iff.mp hp
  exact h _ (List.mem_filterMap.mpr ⟨line, hline, hp⟩)

/-- Where there are no more than a hundred rows, other lines are given none. -/
theorem othersReplace_iff {space : ℕ → Bytes → Option SpaceInfo} {mountinfo : Bytes}
    (h : (mountRows quotient space mountinfo).length ≤ maxDiskUsageRows) :
    OthersReplace quotient space mountinfo ↔
      ∀ p ∈ rowedLines quotient space mountinfo, (mountOf p.1).isSome := by
  rw [← map_rowedLines, List.length_map] at h
  rw [OthersReplace, List.take_of_length_le h, List.drop_eq_nil_of_le h, List.filter_nil,
    List.map_nil, List.perm_nil, List.map_eq_nil_iff, List.filter_eq_nil_iff]
  simp only [Bool.not_eq_true', Bool.not_eq_false]

/-- In a text with no more than a hundred mount lines it is enough that other lines are given no
row. -/
theorem othersReplace_of_mountLines {space : ℕ → Bytes → Option SpaceInfo} {mountinfo : Bytes}
    (h : (mountLines mountinfo).length ≤ maxDiskUsageRows)
    (hrows : ∀ p ∈ rowedLines quotient space mountinfo, (mountOf p.1).isSome) :
    OthersReplace quotient space mountinfo := by
  refine (othersReplace_iff quotient ?_).mpr hrows
  rw [← map_rowedLines, List.length_map]
  exact (length_rowedLines_le quotient hrows).trans h

end

/-! ### A hidden filesystem -/

/-- A disk that is mounted at `/sysroot`. -/
def sysroot : MountLine where
  mountId := ascii "36"
  parentId := ascii "35"
  device := ascii "8:1"
  root := ascii "/"
  mountPoint := ascii "/sysroot"
  mountOptions := ascii "rw"
  optionalFields := []
  fsType := ascii "xfs"
  source := ascii "/dev/sda1"
  superOptions := [ascii "rw"]
  plain := by decide
  absolute := by decide
  typed := by decide
  optioned := MountLine.readWrite_ne_nil

theorem getLines_sysroot : getLines (line sysroot.text) = [sysroot.text] := by
  have hline : ∀ s ∈ [sysroot.text], newline ∉ s := by decide +kernel
  have hlines := getLines_flatMap_line hline
  rwa [List.flatMap_singleton] at hlines

theorem length_mountLines_sysroot : (mountLines (line sysroot.text)).length ≤ maxDiskUsageRows := by
  rw [mountLines, getLines_sysroot]
  exact (List.length_filter_le _ _).trans (by decide)

/-- Every filesystem is half full. -/
def measured : ℕ → Bytes → Option SpaceInfo :=
  fun _ _ => some { capacity := 100, free := 50, available := 50 }

def wholePercent (used capacity : ℕ) : Int := used * 100 / capacity

example : IsHidden (measured 0) MountLine.sourceless.text :=
  ⟨MountLine.sourceless, rfl, by decide, rfl, .inl rfl⟩

end Kasli.Tools.Disk
