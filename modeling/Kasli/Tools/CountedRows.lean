import Kasli.Tools.RowText

/-! The lists that begin with a number of rows. A list whose text fits its limit has the lines
that its header announces. One that does not fit is cut at a byte, and the number in
its first line stays that of all its rows. -/

namespace Kasli.Tools

open Core

/-- The rows of a list. -/
inductive CountedList
  | packages (rows : List Package.PackageListRow)
  | packageChanges (rows : List Package.PackageChangeRow)
  | failedServices (rows : List Systemd.FailedServiceRow)
  | enabledServices (rows : List Systemd.EnabledServiceRow)
  | diskMounts (rows : List Disk.DiskUsageRow)
  | networkInterfaces (rows : List Network.NetworkInterfaceRow)
  | powerSupplies (rows : List Power.PowerSupplyRow)

namespace CountedList

def input (hasMoreRows : Bool) : CountedList → BodyInput
  | .packages rows => .packageList rows hasMoreRows
  | .packageChanges rows => .packageChanges rows hasMoreRows
  | .failedServices rows => .failedServices rows hasMoreRows
  | .enabledServices rows => .enabledServices rows hasMoreRows
  | .diskMounts rows => .diskUsage rows hasMoreRows
  | .networkInterfaces rows => .networkSummary rows hasMoreRows
  | .powerSupplies rows => .powerStatus rows hasMoreRows

/-- What the number of rows is called. -/
def count : CountedList → Bytes
  | .packages _ => ascii "packages_count="
  | .packageChanges _ => ascii "package_changes_count="
  | .failedServices _ => ascii "failed_services_count="
  | .enabledServices _ => ascii "enabled_services_count="
  | .diskMounts _ => ascii "disk_mounts_count="
  | .networkInterfaces _ => ascii "network_interfaces_count="
  | .powerSupplies _ => ascii "power_supplies_count="

/-- The line of an empty list. -/
def noRows : CountedList → Bytes
  | .packages _ => ascii "no_packages=true"
  | .packageChanges _ => ascii "no_package_changes=true"
  | .failedServices _ => ascii "no_failed_services=true"
  | .enabledServices _ => ascii "no_enabled_services=true"
  | .diskMounts _ => ascii "no_disk_mounts=true"
  | .networkInterfaces _ => ascii "no_network_interfaces=true"
  | .powerSupplies _ => ascii "no_power_supplies=true"

/-- The rows as they are written, each with the end of its line. -/
def rowTexts : CountedList → List Bytes
  | .packages rows => rows.map Package.formatPackageListRow
  | .packageChanges rows => rows.map Package.formatPackageChangeRow
  | .failedServices rows => rows.map Systemd.formatFailedServiceRow
  | .enabledServices rows => rows.map Systemd.formatEnabledServiceRow
  | .diskMounts rows => rows.map Disk.formatDiskUsageRow
  | .networkInterfaces rows => rows.map Network.formatNetworkRow
  | .powerSupplies rows => rows.map Power.formatPowerRow

def strings : CountedList → List Bytes
  | .packages rows => rows.flatMap Package.PackageListRow.strings
  | .packageChanges rows => rows.flatMap Package.PackageChangeRow.strings
  | .failedServices rows => rows.flatMap Systemd.FailedServiceRow.strings
  | .enabledServices rows => rows.flatMap Systemd.EnabledServiceRow.strings
  | .diskMounts rows => rows.flatMap Disk.DiskUsageRow.strings
  | .networkInterfaces rows => rows.flatMap Network.NetworkInterfaceRow.strings
  | .powerSupplies rows => rows.flatMap Power.PowerSupplyRow.strings

/-- The lines of a body that shows the first `n` rows. -/
def shownLines (list : CountedList) (hasMoreRows : Bool) (n : ℕ) : List Bytes :=
  [list.count ++ decimal n] ++ (if list.rowTexts = [] then [list.noRows] else []) ++
    (list.rowTexts.take n).map List.dropLast ++
    if n < list.rowTexts.length ∨ hasMoreRows then [ascii "truncated=true"] else []

/-- The body shows as many rows as it says, whole and in order, and says whether there are more. -/
def Announced (list : CountedList) (hasMoreRows : Bool) (body : Bytes) : Prop :=
  ∃ n ≤ list.rowTexts.length, lines body = list.shownLines hasMoreRows n ++ [[]]

variable (list : CountedList) (hasMoreRows : Bool)

theorem fullText_eq : (list.input hasMoreRows).fullText =
    Body.rowsText (countHeader list.count (line list.noRows) list.rowTexts.length) list.rowTexts
      hasMoreRows := by
  cases list <;> simp only [rowTexts, List.length_map] <;> rfl

theorem cap_eq : (list.input hasMoreRows).cap = 64 * 1024 := by cases list <;> rfl

theorem newline_notMem_count :
    newline ∉ list.count := by cases list <;> simp only [count] <;> decide

theorem newline_notMem_noRows :
    newline ∉ list.noRows := by cases list <;> simp only [noRows] <;> decide

theorem newline_notMem_head (n : ℕ) : newline ∉ list.count ++ decimal n := by
  have hdecimal : newline ∉ decimal n := fun h => absurd (isPlain_decimal n newline h).1 (by decide)
  simp [list.newline_notMem_count, hdecimal]

/-- All rows with the header around them. -/
theorem flatMap_shownLines (hrows : ∀ text ∈ list.rowTexts, IsRow (newline ∉ ·) text) :
    (list.shownLines hasMoreRows list.rowTexts.length).flatMap line =
      (list.input hasMoreRows).fullText := by
  have hlines : (list.rowTexts.map List.dropLast).flatMap line = list.rowTexts.flatten := by
    rw [List.flatMap_map, List.flatMap_def]
    refine congrArg List.flatten ((List.map_congr_left fun text htext => ?_).trans (List.map_id _))
    obtain ⟨t, -, rfl⟩ := hrows text htext
    simp [line]
  rw [fullText_eq, Body.rowsText, shownLines, countHeader, List.take_length]
  simp only [List.flatMap_append, hlines, Nat.lt_irrefl, false_or, List.flatten_append]
  cases hasMoreRows <;> by_cases hnil : list.rowTexts = [] <;>
    simp [hnil, line, newline, ascii, truncatedMarker]

/-- Strings without a newline make rows of one line. -/
theorem isRow_of_strings (h : ∀ s ∈ list.strings, newline ∉ s) :
    ∀ text ∈ list.rowTexts, IsRow (newline ∉ ·) text := by
  have hP := kept_notMem_newline
  cases list with
  | packages rows => exact forall_isRow hP.packageListRow h
  | packageChanges rows => exact forall_isRow hP.packageChangeRow h
  | failedServices rows => exact forall_isRow hP.failedServiceRow h
  | enabledServices rows => exact forall_isRow hP.enabledServiceRow h
  | diskMounts rows => exact forall_isRow hP.diskUsageRow h
  | networkInterfaces rows => exact forall_isRow hP.networkRow h
  | powerSupplies rows => exact forall_isRow hP.powerRow h

theorem newline_notMem_shownLines (hrows : ∀ text ∈ list.rowTexts, IsRow (newline ∉ ·) text)
    (n : ℕ) : ∀ s ∈ list.shownLines hasMoreRows n, newline ∉ s := by
  have hrow : ∀ s ∈ (list.rowTexts.take n).map List.dropLast, newline ∉ s := by
    rw [List.forall_mem_map]
    intro text htext
    obtain ⟨t, ht, rfl⟩ := hrows text (List.mem_of_mem_take htext)
    simpa [line] using ht
  have hnone : ∀ s ∈ if list.rowTexts = [] then [list.noRows] else [], newline ∉ s := by
    split_ifs
    · simpa using list.newline_notMem_noRows
    · simp
  have hmark : ∀ s ∈ if n < list.rowTexts.length ∨ hasMoreRows then [ascii "truncated=true"]
      else [], newline ∉ s := by
    split_ifs
    · decide
    · simp
  have hhead := list.newline_notMem_head n
  simp only [shownLines, List.forall_mem_append, List.forall_mem_singleton]
  exact ⟨⟨⟨hhead, hnone⟩, hrow⟩, hmark⟩

/-- A text that fits is what its header announces. -/
theorem announced_of_le (hrows : ∀ text ∈ list.rowTexts, IsRow (newline ∉ ·) text) :
    list.Announced hasMoreRows (list.input hasMoreRows).fullText :=
  ⟨list.rowTexts.length, Nat.le_refl _, by
    rw [← list.flatMap_shownLines hasMoreRows hrows,
      lines_flatMap_line (list.newline_notMem_shownLines hasMoreRows hrows _)]⟩

/-- The text begins with the number of all rows. -/
theorem exists_first_line :
    ∃ rest, (list.input hasMoreRows).fullText =
      line (list.count ++ decimal list.rowTexts.length) ++ rest := by
  rw [fullText_eq, Body.rowsText, countHeader, List.flatten_append, List.flatten_singleton,
    List.append_assoc, List.append_assoc]
  exact ⟨_, rfl⟩

/-- The first line of a text. -/
theorem eq_of_lines_line {s t : Bytes} {l : List Bytes} (hs : newline ∉ s) {u : Bytes}
    (h : lines (line s ++ t) = u :: l) : u = s := by
  rw [lines_line, lines_of_notMem hs] at h
  exact (List.cons.inj h).1.symm

/-- A text that is cut is not: the number in its first line is that of all rows, or the first
line is the one that is cut. -/
theorem not_announced_of_lt (hrows : ∀ text ∈ list.rowTexts, IsRow (newline ∉ ·) text)
    (hlong : 64 * 1024 < (list.input hasMoreRows).fullText.length) :
    ¬ list.Announced hasMoreRows
      (capped truncatedMarker (64 * 1024) (list.input hasMoreRows).fullText) := by
  have hm : truncatedMarker.length = 15 := by decide
  rintro ⟨n, -, hn⟩
  have hbody := eq_flatMap_of_lines hn
  have hfirst : ∃ l, list.shownLines hasMoreRows n ++ [[]] = (list.count ++ decimal n) :: l :=
    ⟨_, rfl⟩
  obtain ⟨l, hl⟩ := hfirst
  rw [hl] at hn
  obtain ⟨rest, hrest⟩ := list.exists_first_line hasMoreRows
  generalize hhead : list.count ++ decimal list.rowTexts.length = head at hrest
  have hnotMem : newline ∉ head := hhead ▸ list.newline_notMem_head _
  rcases Nat.lt_or_ge head.length (64 * 1024 - 15) with hshort | hcut
  · -- the first line is whole
    have htake : capped truncatedMarker (64 * 1024) (list.input hasMoreRows).fullText =
        line head ++ (rest.take (64 * 1024 - 15 - (line head).length) ++ truncatedMarker) := by
      rw [capped_of_lt hlong, hm, hrest, List.take_append, List.append_assoc]
      rw [List.take_of_length_le
        (by simp only [line, List.length_append, List.length_singleton]; omega)]
    rw [htake] at hn
    have hcount := eq_of_lines_line hnotMem hn
    obtain rfl : n = list.rowTexts.length :=
      decimal_injective (List.append_cancel_left (hcount.trans hhead.symm))
    rw [list.flatMap_shownLines hasMoreRows hrows] at hbody
    have hlength := @length_capped_le _ truncatedMarker (64 * 1024) (by decide)
      (list.input hasMoreRows).fullText
    rw [hbody] at hlength
    omega
  · -- the first line is cut, and ends with the marker
    have htake : capped truncatedMarker (64 * 1024) (list.input hasMoreRows).fullText =
        line (head.take (64 * 1024 - 15) ++ ascii "truncated=true") ++ [] := by
      rw [capped_of_lt hlong, hm, hrest, line, List.append_assoc,
        List.take_append_of_le_length hcut, List.append_nil, line, List.append_assoc]
      rfl
    have hplain : newline ∉ head.take (64 * 1024 - 15) ++ ascii "truncated=true" := by
      simp only [List.mem_append, not_or]
      exact ⟨fun h => hnotMem (List.mem_of_mem_take h), by decide⟩
    rw [htake] at hn
    have hcount := congrArg List.getLast? (eq_of_lines_line hplain hn)
    obtain ⟨b, hb⟩ := Option.ne_none_iff_exists'.mp
      (mt List.getLast?_eq_none_iff.mp (decimal_ne_nil n))
    rw [List.getLast?_append, hb, List.getLast?_append] at hcount
    obtain rfl : b = chr 'e' := Option.some.inj hcount
    exact absurd (digit_of_mem_decimal (List.mem_of_getLast? hb)).2 (by decide)

/-- A counted list is what its header announces exactly when its text fits the limit. -/
theorem announced_iff (h : ∀ s ∈ list.strings, newline ∉ s) :
    (∃ body, (list.input hasMoreRows).format = some body ∧ list.Announced hasMoreRows body) ↔
      (list.input hasMoreRows).fullText.length ≤ 64 * 1024 := by
  have hrows := list.isRow_of_strings h
  have hformat := (list.input hasMoreRows).format_eq
  rw [cap_eq] at hformat
  rw [hformat]
  rcases Nat.lt_or_ge (64 * 1024) (list.input hasMoreRows).fullText.length with hlong | hfits
  · refine iff_of_false ?_ (Nat.not_le.mpr hlong)
    rintro ⟨body, hbody, hannounced⟩
    obtain rfl := Option.some.inj hbody
    exact list.not_announced_of_lt hasMoreRows hrows hlong hannounced
  · refine iff_of_true ⟨_, rfl, ?_⟩ hfits
    rw [capped_of_le hfits]
    exact list.announced_of_le hasMoreRows hrows

/-- Two versions of a kernel, and more packages that are not shown. -/
def kernels : CountedList :=
  .packages (["6.8.1", "6.9.2"].map fun version =>
    { name := ascii "kernel", epoch := ascii "0", version := ascii version,
      release := ascii "300.fc40", arch := ascii "x86_64", installTime := ascii "1714521600",
      source := ascii "rpmdb" })

theorem announced_iff_kernels :
    (∃ body, (kernels.input true).format = some body ∧ kernels.Announced true body) ↔
      (kernels.input true).fullText.length ≤ 64 * 1024 :=
  announced_iff kernels true (by decide)

/-- A change of a package with a long name. -/
def longChange : CountedList :=
  .packageChanges [{ timestamp := ascii "2026-05-01", action := ascii "install",
                     package := List.replicate (64 * 1024) (chr 'a'),
                     source := ascii "/var/log/dnf5.log" }]

theorem longChange_strings : ∀ s ∈ longChange.strings, newline ∉ s := by
  simp only [longChange, strings, List.flatMap_singleton, Package.PackageChangeRow.strings,
    List.forall_mem_cons]
  refine ⟨by decide, by decide, ?_, by decide, by simp⟩
  exact fun h => absurd (List.eq_of_mem_replicate h) (by decide)

theorem longChange_long : 64 * 1024 < (longChange.input false).fullText.length := by
  have hself : redactLikelySecret (List.replicate (64 * 1024) (chr 'a')) =
      List.replicate (64 * 1024) (chr 'a') :=
    redactLikelySecret_eq_self (fun h => absurd (List.eq_of_mem_replicate h) (by decide))
      fun h => absurd (List.eq_of_mem_replicate h) (by decide)
  have hkey : (ascii " package=").length = 9 := by decide
  simp only [longChange, input, BodyInput.fullText, Body.rowsText, List.map_singleton,
    List.flatten_singleton, Package.formatPackageChangeRow, hself, List.length_append,
    List.length_replicate, hkey]
  omega

/-- Cut inside its one row, the list still says that it shows one. -/
theorem not_announced : ¬ ∀ (list : CountedList) (hasMoreRows : Bool),
    (∀ s ∈ list.strings, newline ∉ s) →
    ∃ body, (list.input hasMoreRows).format = some body ∧ list.Announced hasMoreRows body := by
  intro h
  obtain ⟨body, hbody, hannounced⟩ := h longChange false longChange_strings
  have hformat := (longChange.input false).format_eq
  rw [cap_eq] at hformat
  obtain rfl := Option.some.inj (hformat.symm.trans hbody)
  exact longChange.not_announced_of_lt false (longChange.isRow_of_strings longChange_strings)
    longChange_long hannounced

end CountedList

end Kasli.Tools
