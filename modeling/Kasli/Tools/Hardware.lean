import Kasli.Tools.Power

/-! The tools that describe the machine. The system info tool (`tools/system_info_tool.cpp`) gives
the release file as it is and the kernel's names. The hardware summary tool
(`tools/hardware_tool.cpp`) has a summary, a body and a call; the lines of its header are appended
without looking whether the body was cut, and what the provider reports is a parameter of the
call. -/

namespace Kasli.Tools.SystemInfo

open Core

/-- The fields of `utsname` that are used; each is a C string in an array of 65 bytes. -/
structure UtsName where
  sysname : Bytes
  release : Bytes
  machine : Bytes
  sysname_le : sysname.length ≤ 64
  release_le : release.length ≤ 64
  machine_le : machine.length ≤ 64

def unameLines : Option UtsName → Bytes
  | none => []
  | some info =>
    ascii "sysname=" ++ info.sysname ++ ascii "\n" ++ ascii "release=" ++
      info.release ++ ascii "\n" ++ ascii "machine=" ++ info.machine ++ ascii "\n"

/-- A file without bytes makes the output fail, and nothing is written after it. -/
def systemInfoBody (osRelease : Option Bytes) (uname : Option UtsName) : Bytes :=
  match osRelease with
  | none => ascii "os_release=unavailable\n" ++ unameLines uname
  | some [] => []
  | some contents => contents ++ unameLines uname

/-- `SystemInfoTool::call` -/
def systemInfoCall (osRelease : Option Bytes) (uname : Option UtsName) (timestamp : Bytes)
    (request : ToolRequest) : Option ToolResponse :=
  some (okResponse request (ascii "system.info") (ascii "system info collected")
    (ascii "OS identity and kernel summary") (systemInfoBody osRelease uname) timestamp)

end Kasli.Tools.SystemInfo

namespace Kasli.Tools.Hardware

open Core

def maxBodyBytes : ℕ := 64 * 1024

structure CpuSummary where
  vendorId : Bytes
  modelName : Bytes
  logicalProcessors : ℕ
  physicalCores : ℕ
  deriving DecidableEq

structure MemorySummary where
  totalBytes : ℕ
  availableBytes : ℕ
  swapTotalBytes : ℕ
  deriving DecidableEq

structure DmiSummary where
  systemVendor : Bytes
  productName : Bytes
  productVersion : Bytes
  boardVendor : Bytes
  boardName : Bytes
  biosVendor : Bytes
  biosVersion : Bytes
  chassisType : Bytes
  deriving DecidableEq

structure GpuDeviceRow where
  name : Bytes
  vendorId : Bytes
  deviceId : Bytes
  classId : Bytes
  driver : Bytes
  source : Bytes
  deriving DecidableEq

structure HardwareSummary where
  architecture : Bytes
  cpu : CpuSummary
  memory : MemorySummary
  dmi : DmiSummary
  gpuDevices : List GpuDeviceRow
  hasMoreGpuDevices : Bool
  deriving DecidableEq

structure HardwareSummaryResult where
  ok : Bool
  error : Bytes
  summary : HardwareSummary

def formatGpuRow (row : GpuDeviceRow) : Bytes :=
  ascii "gpu=name=" ++ redactLikelySecret row.name ++
    ascii " vendor_id=" ++ redactLikelySecret (unknownIfEmpty row.vendorId) ++
    ascii " device_id=" ++ redactLikelySecret (unknownIfEmpty row.deviceId) ++
    ascii " class=" ++ redactLikelySecret (unknownIfEmpty row.classId) ++
    ascii " driver=" ++ redactLikelySecret (unknownIfEmpty row.driver) ++
    ascii " source=" ++ redactLikelySecret (unknownIfEmpty row.source) ++ ascii "\n"

def textLine (key value : Bytes) :
    Bytes := key ++ redactLikelySecret (unknownIfEmpty value) ++ ascii "\n"

def numberLine (key : Bytes) (value : ℕ) : Bytes := key ++ decimal value ++ ascii "\n"

/-- The lines before the devices. -/
def summaryLines (summary : HardwareSummary) : List Bytes :=
  [ascii "hardware_summary=1\n",
    textLine (ascii "architecture=") summary.architecture,
    textLine (ascii "cpu_vendor=") summary.cpu.vendorId,
    textLine (ascii "cpu_model=") summary.cpu.modelName,
    numberLine (ascii "cpu_logical_processors=") summary.cpu.logicalProcessors,
    numberLine (ascii "cpu_physical_cores=") summary.cpu.physicalCores,
    numberLine (ascii "memory_total_bytes=") summary.memory.totalBytes,
    numberLine (ascii "memory_available_bytes=") summary.memory.availableBytes,
    numberLine (ascii "swap_total_bytes=") summary.memory.swapTotalBytes,
    textLine (ascii "system_vendor=") summary.dmi.systemVendor,
    textLine (ascii "product_name=") summary.dmi.productName,
    textLine (ascii "product_version=") summary.dmi.productVersion,
    textLine (ascii "board_vendor=") summary.dmi.boardVendor,
    textLine (ascii "board_name=") summary.dmi.boardName,
    textLine (ascii "bios_vendor=") summary.dmi.biosVendor,
    textLine (ascii "bios_version=") summary.dmi.biosVersion,
    textLine (ascii "chassis_type=") summary.dmi.chassisType,
    numberLine (ascii "gpu_devices_count=") summary.gpuDevices.length]

def formatHardwareSummaryBody (summary : HardwareSummary) : Option Bytes :=
  Body.formatRows maxBodyBytes (summaryLines summary) (summary.gpuDevices.map formatGpuRow)
    summary.hasMoreGpuDevices

/-- `HardwareSummaryTool::call` -/
def hardwareSummaryCall (result : HardwareSummaryResult) (timestamp : Bytes)
    (request : ToolRequest) : Option ToolResponse :=
  if !result.ok then
    return errorResponse request (if result.error = [] then ascii "hardware summary provider failed"
      else result.error)
  else do
    let body ← formatHardwareSummaryBody result.summary
    return okResponse request (ascii "hardware.summary") (ascii "hardware summary collected")
      (ascii "bounded local hardware summary") body timestamp

end Kasli.Tools.Hardware
