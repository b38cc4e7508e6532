import Kasli.Text.Readings
import Kasli.Tools.Systemd

/-! The power status tool (`tools/power_tool.cpp`): its rows, its body and its call. What the
provider reports is a parameter of the call, and what the system says of the default provider. -/

namespace Kasli.Tools

open Core

/-- `unknown_if_empty` -/
def unknownIfEmpty (value : Bytes) : Bytes := if value = [] then ascii "unknown" else value

namespace Power

def maxPowerRows : ℕ := 16
def maxBodyBytes : ℕ := 64 * 1024

structure PowerSupplyRow where
  name : Bytes
  type : Bytes
  status : Bytes
  online : Bytes
  capacityPercent : Bytes
  health : Bytes
  technology : Bytes
  energyNow : Bytes
  energyFull : Bytes
  chargeNow : Bytes
  chargeFull : Bytes
  powerNow : Bytes
  voltageNow : Bytes
  currentNow : Bytes
  cycleCount : Bytes
  manufacturer : Bytes
  modelName : Bytes
  source : Bytes
  deriving DecidableEq

structure PowerStatusResult where
  ok : Bool
  error : Bytes
  rows : List PowerSupplyRow
  hasMoreRows : Bool

def formatPowerRow (row : PowerSupplyRow) : Bytes :=
  ascii "power_supply=name=" ++ redactLikelySecret (unknownIfEmpty row.name) ++
    ascii " type=" ++ redactLikelySecret (unknownIfEmpty row.type) ++
    ascii " status=" ++ redactLikelySecret (unknownIfEmpty row.status) ++
    ascii " online=" ++ redactLikelySecret (unknownIfEmpty row.online) ++
    ascii " capacity_percent=" ++ redactLikelySecret (unknownIfEmpty row.capacityPercent) ++
    ascii " health=" ++ redactLikelySecret (unknownIfEmpty row.health) ++
    ascii " technology=" ++ redactLikelySecret (unknownIfEmpty row.technology) ++
    ascii " energy_now=" ++ redactLikelySecret (unknownIfEmpty row.energyNow) ++
    ascii " energy_full=" ++ redactLikelySecret (unknownIfEmpty row.energyFull) ++
    ascii " charge_now=" ++ redactLikelySecret (unknownIfEmpty row.chargeNow) ++
    ascii " charge_full=" ++ redactLikelySecret (unknownIfEmpty row.chargeFull) ++
    ascii " power_now=" ++ redactLikelySecret (unknownIfEmpty row.powerNow) ++
    ascii " voltage_now=" ++ redactLikelySecret (unknownIfEmpty row.voltageNow) ++
    ascii " current_now=" ++ redactLikelySecret (unknownIfEmpty row.currentNow) ++
    ascii " cycle_count=" ++ redactLikelySecret (unknownIfEmpty row.cycleCount) ++
    ascii " manufacturer=" ++ redactLikelySecret (unknownIfEmpty row.manufacturer) ++
    ascii " model_name=" ++ redactLikelySecret (unknownIfEmpty row.modelName) ++
    ascii " source=" ++ redactLikelySecret (unknownIfEmpty row.source) ++ ascii "\n"

def powerStatusHeader (rows : ℕ) : List Bytes :=
  countHeader (ascii "power_supplies_count=") (ascii "no_power_supplies=true\n") rows

def formatPowerStatusBody (rows : List PowerSupplyRow) (hasMoreRows : Bool) : Option Bytes :=
  Body.formatRows maxBodyBytes (powerStatusHeader rows.length) (rows.map formatPowerRow) hasMoreRows

/-- `PowerStatusTool::call` -/
def powerStatusCall (result : PowerStatusResult) (timestamp : Bytes) (request : ToolRequest) :
    Option ToolResponse :=
  if !result.ok then
    return errorResponse request (if result.error = [] then ascii "power status provider failed"
      else result.error)
  else do
    let body ← formatPowerStatusBody result.rows result.hasMoreRows
    return okResponse request (ascii "power.status") (ascii "power status listed")
      (ascii "bounded local power supply status") body timestamp

/-! ### The default provider -/

/-- The files of a power supply that are read. -/
structure PowerSupplyFiles where
  type : Option Bytes
  status : Option Bytes
  online : Option Bytes
  capacity : Option Bytes
  health : Option Bytes
  technology : Option Bytes
  energyNow : Option Bytes
  energyFull : Option Bytes
  chargeNow : Option Bytes
  chargeFull : Option Bytes
  powerNow : Option Bytes
  voltageNow : Option Bytes
  currentNow : Option Bytes
  cycleCount : Option Bytes
  manufacturer : Option Bytes
  modelName : Option Bytes

/-- What the system says. The directory of the supplies may not exist, and may not be readable to
its end. -/
structure PowerReadings where
  present : Bool
  names : Option (List Bytes)
  files : Bytes → PowerSupplyFiles

def powerSupplyRow (readings : PowerReadings) (name : Bytes) : PowerSupplyRow :=
  let files := readings.files name
  let read (file : Option Bytes) := readTextFile file (ascii "unknown")
  { name
    type := read files.type
    status := read files.status
    online := read files.online
    capacityPercent := read files.capacity
    health := read files.health
    technology := read files.technology
    energyNow := read files.energyNow
    energyFull := read files.energyFull
    chargeNow := read files.chargeNow
    chargeFull := read files.chargeFull
    powerNow := read files.powerNow
    voltageNow := read files.voltageNow
    currentNow := read files.currentNow
    cycleCount := read files.cycleCount
    manufacturer := read files.manufacturer
    modelName := read files.modelName
    source := ascii "sysfs" }

/-- `default_power_status_provider` -/
def powerStatusProvider (readings : PowerReadings) : PowerStatusResult :=
  let unavailable : PowerStatusResult :=
    { ok := false, error := ascii "power supply status is not available", rows := [],
      hasMoreRows := false }
  if !readings.present then unavailable
  else
    match readings.names with
    | none => unavailable
    | some names =>
      let sorted := names.mergeSort fun left right => !decide (right < left)
      let (rows, hasMoreRows) := collect maxPowerRows (sorted.map (powerSupplyRow readings))
      { ok := true, error := [], rows, hasMoreRows }

end Power

end Kasli.Tools
