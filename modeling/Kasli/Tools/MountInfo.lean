import Kasli.Data.Selection
import Kasli.Text.Lines
import Kasli.Tools.Disk

/-! Where the disk usage tool gets its rows from (`default_disk_usage_provider` of
`tools/disk_tool.cpp`). The text of `/proc/self/mountinfo` is read line by line; the mounts
of real filesystems are measured, and at most a hundred that can be are kept. The text,
the measurements and the order of equal rows are parameters. -/

namespace Kasli.Tools.Disk

def maxDiskUsageRows : ℕ := 100

/-! ### Lines -/

structure DiskMountInfo where
  mountPoint : Bytes
  fsType : Bytes
  source : Bytes
  deriving DecidableEq

/-- The fields between blanks; blanks that follow one another make no empty field. -/
def splitSpaces (value : Bytes) : List Bytes := (value.splitOn (chr ' ')).filter (· ≠ [])

def octalDigitValue (value : UInt8) : Option ℕ :=
  if value < chr '0' ∨ chr '7' < value then none else some (value.toNat - (chr '0').toNat)

/-- A byte of three octal digits; what is too large for a byte wraps around. -/
def octalByte (first second third : UInt8) : Option UInt8 := do
  let first ← octalDigitValue first
  let second ← octalDigitValue second
  let third ← octalDigitValue third
  return UInt8.ofNat (first * 64 + second * 8 + third)

/-- A backslash with three octal digits after it is a byte, and any other byte is itself. -/
def decodeMountinfoValue : Bytes → Bytes
  | b :: first :: second :: third :: rest =>
    if b = chr '\\' then
      match octalByte first second third with
      | some decoded => decoded :: decodeMountinfoValue rest
      | none => b :: decodeMountinfoValue (first :: second :: third :: rest)
    else b :: decodeMountinfoValue (first :: second :: third :: rest)
  | value => value

/-- At least ten fields; the type and the source come after a field that is a dash, which is not
among the first six. -/
def parseMountinfoLine (line : Bytes) : Option DiskMountInfo :=
  let fields := splitSpaces line
  if fields.length < 10 then none
  else do
    let separator ← fields.idxOf? (ascii "-")
    if separator < 6 ∨ separator + 3 ≥ fields.length then none
    else
      return { mountPoint := decodeMountinfoValue (← fields[4]?)
               fsType := decodeMountinfoValue (← fields[separator + 1]?)
               source := decodeMountinfoValue (← fields[separator + 2]?) }

/-! ### Mounts -/

def virtualTypes : List Bytes :=
  ["autofs", "bpf", "cgroup", "cgroup2", "configfs", "debugfs", "devpts", "devtmpfs",
    "efivarfs", "fusectl", "hugetlbfs", "mqueue", "proc", "pstore", "securityfs", "selinuxfs",
    "sysfs", "tmpfs", "tracefs", "nsfs", "ramfs", "rpc_pipefs", "binfmt_misc"].map ascii

def isDiskUsageMountCandidate (mount : DiskMountInfo) : Bool :=
  if mount.mountPoint = [] ∨ mount.fsType = [] then false
  else if mount.fsType ∈ virtualTypes then false
  else if ascii "/proc" <+: mount.mountPoint ∨ ascii "/sys" <+: mount.mountPoint ∨
      ascii "/dev" <+: mount.mountPoint then
    false
  else true

structure SpaceInfo where
  capacity : ℕ
  free : ℕ
  available : ℕ
  deriving DecidableEq

/-- `quotient` is the percentage that `long double` makes of two numbers, rounded towards zero. -/
def usedPercent (quotient : ℕ → ℕ → Int) (capacityBytes availableBytes : ℕ) : Int :=
  if capacityBytes = 0 ∨ availableBytes ≥ capacityBytes then 0
  else quotient (capacityBytes - availableBytes) capacityBytes

section

variable (quotient : ℕ → ℕ → Int)

/-- The row of a line, when the line is of a mount that is listed and `space` measures it. -/
def lineRow (space : Bytes → Option SpaceInfo) (line : Bytes) : Option DiskUsageRow := do
  let mount ← parseMountinfoLine line
  if !isDiskUsageMountCandidate mount then none
  else
    let space ← space mount.mountPoint
    return { mountPoint := mount.mountPoint, fsType := mount.fsType, source := mount.source,
             capacityBytes := space.capacity, freeBytes := space.free,
             availableBytes := space.available,
             usedPercent := usedPercent quotient space.capacity space.available }

/-- The rows of all lines. The measurements at the `n`th line are `space n`. -/
def mountRows (space : ℕ → Bytes → Option SpaceInfo) (mountinfo : Bytes) : List DiskUsageRow :=
  (getLines mountinfo).zipIdx.filterMap fun line => lineRow quotient (space line.2) line.1

def byMountPoint (left right : DiskUsageRow) : Bool := left.mountPoint < right.mountPoint

/-- Some order of equal mount points: the order they come in. -/
def mountSorting : Sorting byMountPoint :=
  .merge byMountPoint
    (by
      intro a b c hab hbc
      simp only [byMountPoint, decide_eq_true_eq, List.not_lt] at *
      exact List.le_trans hab hbc)
    (by
      intro a b h
      simp only [byMountPoint, decide_eq_true_eq, List.not_lt] at *
      exact List.le_of_lt h)

/-- `default_disk_usage_provider`; a file that cannot be opened has no text. -/
def diskUsageProvider (sorting : Sorting byMountPoint) (space : ℕ → Bytes → Option SpaceInfo)
    (mountinfo : Option Bytes) :
    DiskUsageResult :=
  match mountinfo with
  | none => { ok := false, error := ascii "mountinfo is not available", rows := [],
              hasMoreRows := false }
  | some text =>
    let (rows, hasMoreRows) := collect maxDiskUsageRows (mountRows quotient space text)
    { ok := true, error := [], rows := sorting.sort rows, hasMoreRows }

end

end Kasli.Tools.Disk
