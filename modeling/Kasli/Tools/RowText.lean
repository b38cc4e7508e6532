import Kasli.Text.Lines
import Kasli.Core.RedactUtf8
import Kasli.Tools.Bodies

/-! The texts of rows. A row is a line: names that are plain text, and between them the
strings of the row, most of them redacted. So what is true of plain text and of those
strings is true of the line, if joining and redacting keep it. -/

namespace Kasli.Tools

open Core Utf8

/-- Printable ASCII. -/
def IsPlain (s : Bytes) : Prop := ∀ b ∈ s, 0x20 ≤ b ∧ b < 0x7F

instance (s : Bytes) : Decidable (IsPlain s) :=
  inferInstanceAs (Decidable (∀ b ∈ s, 0x20 ≤ b ∧ b < 0x7F))

theorem isPlain_decimal (n : ℕ) : IsPlain (decimal n) := by
  intro b hb
  obtain ⟨hge, hle⟩ := digit_of_mem_decimal hb
  exact ⟨UInt8.le_trans (by decide) hge, UInt8.lt_of_le_of_lt hle (by decide)⟩

theorem isPlain_decimalInt (n : Int) : IsPlain (decimalInt n) := by
  unfold decimalInt
  split_ifs
  · intro b hb
    rcases List.mem_cons.mp hb with rfl | hb
    · decide
    · exact isPlain_decimal _ b hb
  · exact isPlain_decimal _

/-- A property of texts that the making of a row keeps. -/
structure Kept (P : Bytes → Prop) : Prop where
  plain : ∀ {s}, IsPlain s → P s
  append : ∀ {s t}, P s → P t → P (s ++ t)
  redact : ∀ {s}, P s → P (redactLikelySecret s)

theorem kept_notMem_newline : Kept fun s => newline ∉ s where
  plain h hb := absurd (h newline hb).1 (by decide)
  append hs ht := by simp [hs, ht]
  redact h hb := (mem_redactLikelySecret hb).elim h (by decide)

theorem kept_valid : Kept Valid where
  plain h := valid_of_isAscii fun b hb => UInt8.lt_trans (h b hb).2 (by decide)
  append := valid_append
  redact := valid_redactLikelySecret

/-- A line that has the property. -/
def IsRow (P : Bytes → Prop) (text : Bytes) : Prop := ∃ t, P t ∧ text = line t

theorem forall_isRow {R : Type} {P : Bytes → Prop} {strings : R → List Bytes} {format : R → Bytes}
    (h : ∀ {row}, (∀ s ∈ strings row, P s) → IsRow P (format row)) {rows : List R}
    (hrows : ∀ s ∈ rows.flatMap strings, P s) : ∀ text ∈ rows.map format, IsRow P text := by
  rw [List.forall_mem_map]
  exact fun row hrow => h fun s hs => hrows s (List.mem_flatMap_of_mem hrow hs)

/-! ### The strings of a row -/

def Systemd.SystemdUnitListRow.strings (row : Systemd.SystemdUnitListRow) : List Bytes :=
  [row.unit, row.loadState, row.activeState, row.subState, row.description]

def Systemd.FailedServiceRow.strings (row : Systemd.FailedServiceRow) : List Bytes :=
  [row.unit, row.loadState, row.activeState, row.subState, row.description]

def Systemd.EnabledServiceRow.strings (row : Systemd.EnabledServiceRow) : List Bytes :=
  [row.unit, row.state]

def Disk.DiskUsageRow.strings (row : Disk.DiskUsageRow) : List Bytes :=
  [row.mountPoint, row.fsType, row.source]

def Network.NetworkInterfaceRow.strings (row : Network.NetworkInterfaceRow) : List Bytes :=
  [row.name, row.operState, row.type, row.mtu, row.carrier, row.macAddress, row.source] ++
    row.ipv4Addresses ++ row.ipv6Addresses

def Power.PowerSupplyRow.strings (row : Power.PowerSupplyRow) : List Bytes :=
  [row.name, row.type, row.status, row.online, row.capacityPercent, row.health,
    row.technology, row.energyNow, row.energyFull, row.chargeNow, row.chargeFull, row.powerNow,
    row.voltageNow, row.currentNow, row.cycleCount, row.manufacturer, row.modelName, row.source]

def Hardware.GpuDeviceRow.strings (row : Hardware.GpuDeviceRow) : List Bytes :=
  [row.name, row.vendorId, row.deviceId, row.classId, row.driver, row.source]

def Package.PackageChangeRow.strings (row : Package.PackageChangeRow) : List Bytes :=
  [row.timestamp, row.action, row.package, row.source]

def Package.PackageListRow.strings (row : Package.PackageListRow) : List Bytes :=
  [row.name, row.epoch, row.version, row.release, row.arch, row.installTime, row.source]

/-! ### Rows -/

namespace Kept

variable {P : Bytes → Prop} (hP : Kept P)

include hP

theorem unknownIfEmpty {value : Bytes} (h : P value) : P (unknownIfEmpty value) := by
  unfold Tools.unknownIfEmpty
  split_ifs
  · exact hP.plain (by decide)
  · exact h

theorem unitRow {row : Systemd.SystemdUnitListRow} (h : ∀ s ∈ row.strings, P s) :
    IsRow P (Systemd.formatUnitRow row) := by
  simp only [Systemd.SystemdUnitListRow.strings, List.forall_mem_cons] at h
  obtain ⟨hunit, hload, hactive, hsub, hdescription, -⟩ := h
  refine ⟨_, ?_, rfl⟩
  repeat' apply hP.append
  all_goals first | exact hP.plain (by decide) | exact hP.redact ‹_› | assumption

theorem failedServiceRow {row : Systemd.FailedServiceRow} (h : ∀ s ∈ row.strings, P s) :
    IsRow P (Systemd.formatFailedServiceRow row) := by
  simp only [Systemd.FailedServiceRow.strings, List.forall_mem_cons] at h
  obtain ⟨hunit, hload, hactive, hsub, hdescription, -⟩ := h
  refine ⟨_, ?_, rfl⟩
  repeat' apply hP.append
  all_goals first | exact hP.plain (by decide) | exact hP.redact ‹_› | assumption

theorem enabledServiceRow {row : Systemd.EnabledServiceRow} (h : ∀ s ∈ row.strings, P s) :
    IsRow P (Systemd.formatEnabledServiceRow row) := by
  simp only [Systemd.EnabledServiceRow.strings, List.forall_mem_cons] at h
  obtain ⟨hunit, hstate, -⟩ := h
  exact ⟨_, hP.append (hP.append hunit (hP.plain (by decide))) (hP.redact hstate), rfl⟩

theorem diskUsageRow {row : Disk.DiskUsageRow} (h : ∀ s ∈ row.strings, P s) :
    IsRow P (Disk.formatDiskUsageRow row) := by
  simp only [Disk.DiskUsageRow.strings, List.forall_mem_cons] at h
  obtain ⟨hmount, htype, hsource, -⟩ := h
  refine ⟨_, ?_, rfl⟩
  repeat' apply hP.append
  all_goals first
    | exact hP.plain (by decide)
    | exact hP.plain (isPlain_decimal _)
    | exact hP.plain (isPlain_decimalInt _)
    | exact hP.redact ‹_›

theorem intercalate {sep : Bytes} (hsep : P sep) {l : List Bytes} (h : ∀ s ∈ l, P s) :
    P (sep.intercalate l) := by
  induction l with
  | nil => exact hP.plain (by simp [IsPlain])
  | cons s l ih =>
    rw [List.forall_mem_cons] at h
    cases l with
    | nil => simpa using h.1
    | cons t l =>
      rw [List.intercalate_cons_cons]
      exact hP.append (hP.append h.1 hsep) (ih h.2)

theorem addressList {addresses : List Bytes} (h : ∀ s ∈ addresses, P s) :
    P (Network.formatNetworkAddressList addresses) := by
  have htake : ∀ s ∈ addresses.take Network.maxAddressesPerFamily, P s :=
    fun s hs => h s (List.mem_of_mem_take hs)
  have hall := hP.intercalate (hP.plain (by decide : IsPlain [chr ','])) htake
  unfold Network.formatNetworkAddressList
  split_ifs
  · exact hP.plain (by decide)
  · exact hP.append hall (hP.plain (by decide))
  · exact hP.append hall (hP.plain (by simp [IsPlain]))

theorem networkRow {row : Network.NetworkInterfaceRow} (h : ∀ s ∈ row.strings, P s) :
    IsRow P (Network.formatNetworkRow row) := by
  simp only [Network.NetworkInterfaceRow.strings, List.forall_mem_append, List.forall_mem_cons] at h
  obtain ⟨⟨⟨hname, hstate, htype, hmtu, hcarrier, hmac, hsource, -⟩, hipv4⟩, hipv6⟩ := h
  have hipv4 := hP.addressList hipv4
  have hipv6 := hP.addressList hipv6
  have hroute : ∀ b : Bool, IsPlain (if b then ascii "true" else ascii "false") := by decide
  refine ⟨_, ?_, rfl⟩
  repeat' apply hP.append
  all_goals first
    | exact hP.plain (by decide)
    | exact hP.plain (isPlain_decimal _)
    | exact hP.plain (hroute _)
    | exact hP.redact ‹_›

theorem powerRow {row : Power.PowerSupplyRow} (h : ∀ s ∈ row.strings, P s) :
    IsRow P (Power.formatPowerRow row) := by
  replace h : ∀ s ∈ row.strings, P (redactLikelySecret (Tools.unknownIfEmpty s)) :=
    fun s hs => hP.redact (hP.unknownIfEmpty (h s hs))
  simp only [Power.PowerSupplyRow.strings, List.forall_mem_cons] at h
  obtain ⟨h₁, h₂, h₃, h₄, h₅, h₆, h₇, h₈, h₉, h₁₀, h₁₁, h₁₂, h₁₃, h₁₄, h₁₅, h₁₆, h₁₇, h₁₈, -⟩ := h
  refine ⟨_, ?_, rfl⟩
  repeat' apply hP.append
  all_goals first | exact hP.plain (by decide) | assumption

theorem gpuRow {row : Hardware.GpuDeviceRow} (h : ∀ s ∈ row.strings, P s) :
    IsRow P (Hardware.formatGpuRow row) := by
  simp only [Hardware.GpuDeviceRow.strings, List.forall_mem_cons] at h
  obtain ⟨hname, hvendor, hdevice, hclass, hdriver, hsource, -⟩ := h
  refine ⟨_, ?_, rfl⟩
  repeat' apply hP.append
  all_goals first
    | exact hP.plain (by decide)
    | exact hP.redact ‹_›
    | exact hP.redact (hP.unknownIfEmpty ‹_›)

theorem packageChangeRow {row : Package.PackageChangeRow} (h : ∀ s ∈ row.strings, P s) :
    IsRow P (Package.formatPackageChangeRow row) := by
  simp only [Package.PackageChangeRow.strings, List.forall_mem_cons] at h
  obtain ⟨htimestamp, haction, hpackage, hsource, -⟩ := h
  refine ⟨_, ?_, rfl⟩
  repeat' apply hP.append
  all_goals first | exact hP.plain (by decide) | exact hP.redact ‹_›

theorem packageListRow {row : Package.PackageListRow} (h : ∀ s ∈ row.strings, P s) :
    IsRow P (Package.formatPackageListRow row) := by
  simp only [Package.PackageListRow.strings, List.forall_mem_cons] at h
  obtain ⟨hname, hepoch, hversion, hrelease, harch, htime, hsource, -⟩ := h
  refine ⟨_, ?_, rfl⟩
  repeat' apply hP.append
  all_goals first | exact hP.plain (by decide) | exact hP.redact ‹_›

end Kept

end Kasli.Tools
