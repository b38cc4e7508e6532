import Kasli.Tools.Systemd

/-! The disk usage tool (`tools/disk_tool.cpp`): its rows, its body and its call. What the
provider reports is a parameter of the call. -/

namespace Kasli.Tools.Disk

open Core

def maxBodyBytes : ℕ := 64 * 1024

structure DiskUsageRow where
  mountPoint : Bytes
  fsType : Bytes
  source : Bytes
  capacityBytes : ℕ
  freeBytes : ℕ
  availableBytes : ℕ
  usedPercent : Int
  deriving DecidableEq

structure DiskUsageResult where
  ok : Bool
  error : Bytes
  rows : List DiskUsageRow
  hasMoreRows : Bool

def formatDiskUsageRow (row : DiskUsageRow) : Bytes :=
  ascii "mount_point=" ++ redactLikelySecret row.mountPoint ++
    ascii " fs_type=" ++ redactLikelySecret row.fsType ++
    ascii " source=" ++ redactLikelySecret row.source ++
    ascii " capacity_bytes=" ++ decimal row.capacityBytes ++
    ascii " free_bytes=" ++ decimal row.freeBytes ++
    ascii " available_bytes=" ++ decimal row.availableBytes ++
    ascii " used_percent=" ++ decimalInt row.usedPercent ++ ascii "\n"

def diskUsageHeader (rows : ℕ) : List Bytes :=
  countHeader (ascii "disk_mounts_count=") (ascii "no_disk_mounts=true\n") rows

def formatDiskUsageBody (rows : List DiskUsageRow) (hasMoreRows : Bool) : Option Bytes :=
  Body.formatRows maxBodyBytes (diskUsageHeader rows.length)
    (rows.map formatDiskUsageRow) hasMoreRows

/-- `DiskUsageTool::call` -/
def diskUsageCall (result : DiskUsageResult) (timestamp : Bytes) (request : ToolRequest) :
    Option ToolResponse :=
  if !result.ok then
    return errorResponse request (if result.error = [] then ascii "disk usage provider failed"
      else result.error)
  else do
    let body ← formatDiskUsageBody result.rows result.hasMoreRows
    return okResponse request (ascii "disk.usage") (ascii "disk usage listed")
      (ascii "bounded mounted filesystem usage") body timestamp

end Kasli.Tools.Disk
