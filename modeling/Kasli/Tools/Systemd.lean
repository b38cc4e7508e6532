import Kasli.Core.Host
import Kasli.Tools.Body

/-! The systemd tools (`tools/systemd_tool.cpp`): unit lists read entry by entry from the
bus, and the status of one unit read property by property. What the bus answers is a
parameter of each call. -/

namespace Kasli.Tools

open Core

/-! ### Responses -/

/-- The response of a tool that could not read what it is about. -/
def errorResponse (request : ToolRequest) (message : Bytes) : ToolResponse :=
  { requestId := request.id, status := .error, message, evidence := [] }

/-- The response with one record under the tool's name. -/
def okResponse (request : ToolRequest) (name message summary body timestamp : Bytes) :
    ToolResponse :=
  { requestId := request.id, status := .ok, message,
    evidence := [{ id := request.id ++ ascii ":" ++ name, source := name, summary,
                   body, timestamp }] }

namespace Systemd

def maxUnits : ℕ := 200
def maxFailedServices : ℕ := 100
def maxEnabledServices : ℕ := 200
def maxBodyBytes : ℕ := 64 * 1024

/-! ### Bodies -/

structure SystemdUnitListRow where
  unit : Bytes
  loadState : Bytes
  activeState : Bytes
  subState : Bytes
  description : Bytes
  deriving DecidableEq

structure FailedServiceRow where
  unit : Bytes
  loadState : Bytes
  activeState : Bytes
  subState : Bytes
  description : Bytes
  deriving DecidableEq

structure EnabledServiceRow where
  unit : Bytes
  state : Bytes
  deriving DecidableEq

structure SystemdUnitStatusEvidence where
  unit : Bytes
  id : Bytes
  description : Bytes
  loadState : Bytes
  activeState : Bytes
  subState : Bytes
  unitFileState : Bytes
  fragmentPath : Bytes
  isService : Bool
  serviceResult : Bytes
  execMainCode : Bytes
  execMainStatus : Bytes
  deriving DecidableEq

def formatUnitRow (row : SystemdUnitListRow) : Bytes :=
  row.unit ++ ascii " load=" ++ row.loadState ++ ascii " active=" ++ row.activeState ++
    ascii " sub=" ++
    row.subState ++ ascii " description=" ++ redactLikelySecret row.description ++ ascii "\n"

def formatFailedServiceRow (row : FailedServiceRow) : Bytes :=
  row.unit ++ ascii " load=" ++ row.loadState ++ ascii " active=" ++ row.activeState ++
    ascii " sub=" ++
    row.subState ++ ascii " description=" ++ redactLikelySecret row.description ++ ascii "\n"

def formatEnabledServiceRow (row : EnabledServiceRow) : Bytes :=
  row.unit ++ ascii " state=" ++ redactLikelySecret row.state ++ ascii "\n"

def formatSystemdUnitsListBody (rows : List SystemdUnitListRow)
    (hasMoreRows : Bool) : Option Bytes :=
  Body.formatRows maxBodyBytes [] (rows.map formatUnitRow) hasMoreRows

def failedServicesHeader (rows : ℕ) : List Bytes :=
  countHeader (ascii "failed_services_count=") (ascii "no_failed_services=true\n") rows

def formatFailedServicesBody (rows : List FailedServiceRow) (hasMoreRows : Bool) : Option Bytes :=
  Body.formatRows maxBodyBytes (failedServicesHeader rows.length)
    (rows.map formatFailedServiceRow) hasMoreRows

def enabledServicesHeader (rows : ℕ) : List Bytes :=
  countHeader (ascii "enabled_services_count=") (ascii "no_enabled_services=true\n") rows

def formatEnabledServicesBody (rows : List EnabledServiceRow) (hasMoreRows : Bool) : Option Bytes :=
  Body.formatRows maxBodyBytes (enabledServicesHeader rows.length)
    (rows.map formatEnabledServiceRow) hasMoreRows

/-- `key=value` on a line, the value redacted. -/
def propertyLine (key value : Bytes) :
    Bytes := key ++ ascii "=" ++ redactLikelySecret value ++ ascii "\n"

/-- The lines of a unit's status; only a service has a result. -/
def unitStatusLines (evidence : SystemdUnitStatusEvidence) : List Bytes :=
  [propertyLine (ascii "unit") evidence.unit,
    propertyLine (ascii "id") evidence.id,
    propertyLine (ascii "description") evidence.description,
    propertyLine (ascii "load_state") evidence.loadState,
    propertyLine (ascii "active_state") evidence.activeState,
    propertyLine (ascii "sub_state") evidence.subState,
    propertyLine (ascii "unit_file_state") evidence.unitFileState,
    propertyLine (ascii "fragment_path") evidence.fragmentPath] ++
  if evidence.isService then
    [propertyLine (ascii "service_result") evidence.serviceResult,
      propertyLine (ascii "exec_main_code") evidence.execMainCode,
      propertyLine (ascii "exec_main_status") evidence.execMainStatus]
  else []

/-- This formatter does not stop after a cut. -/
def formatSystemdUnitStatusBody (evidence : SystemdUnitStatusEvidence) : Option Bytes := do
  return (← Body.appendAll maxBodyBytes .empty (unitStatusLines evidence)).text

/-! ### Reading from the bus -/

/-- `value_or_empty`; a C string may be a null pointer. -/
def valueOrEmpty (value : Option Bytes) : Bytes := value.getD []

/-- What is after the last slash. -/
def normalizeSystemdUnitFileName (unitFile : Bytes) : Bytes :=
  (unitFile.reverse.takeWhile (· != chr '/')).reverse

/-- How reading an array of entries ends. -/
inductive ArrayEnd
  | badEntry
  | badList
  | badFinish
  | complete
  deriving DecidableEq

/-- What becomes of a call that lists something: the support is not built in, or the call fails, or
entries are read until the array ends. -/
inductive ListReply (E : Type)
  | notBuilt
  | noBus
  | noReply
  | noArray
  | entries (read : List E) (ending : ArrayEnd)

/-- What the two lists call what they list, in the messages of their errors. -/
structure ListMessages where
  failedToList : Bytes
  failedToReadList : Bytes
  failedToReadEntry : Bytes
  failedToFinish : Bytes

def unitMessages : ListMessages where
  failedToList := ascii "failed to list systemd units"
  failedToReadList := ascii "failed to read systemd unit list"
  failedToReadEntry := ascii "failed to read systemd unit entry"
  failedToFinish := ascii "failed to finish reading systemd unit list"

def unitFileMessages : ListMessages where
  failedToList := ascii "failed to list systemd unit files"
  failedToReadList := ascii "failed to read systemd unit file list"
  failedToReadEntry := ascii "failed to read systemd unit file entry"
  failedToFinish := ascii "failed to finish reading systemd unit file list"

/-- The entries, or the message of the error. -/
def ListReply.read {E : Type} (messages : ListMessages) : ListReply E → Except Bytes (List E)
  | .notBuilt => .error (ascii "systemd support was not built")
  | .noBus => .error (ascii "failed to connect to systemd system bus")
  | .noReply => .error messages.failedToList
  | .noArray => .error messages.failedToReadList
  | .entries _ .badEntry => .error messages.failedToReadEntry
  | .entries _ .badList => .error messages.failedToReadList
  | .entries _ .badFinish => .error messages.failedToFinish
  | .entries read .complete => .ok read

/-- The strings of an entry of `ListUnits` that are used. -/
structure UnitEntry where
  unit : Option Bytes
  description : Option Bytes
  loadState : Option Bytes
  activeState : Option Bytes
  subState : Option Bytes

structure UnitFileEntry where
  unit : Option Bytes
  state : Option Bytes

def unitRow (entry : UnitEntry) : SystemdUnitListRow :=
  { unit := valueOrEmpty entry.unit, loadState := valueOrEmpty entry.loadState,
    activeState := valueOrEmpty entry.activeState, subState := valueOrEmpty entry.subState,
    description := valueOrEmpty entry.description }

/-- The row of a service that failed. -/
def failedServiceRow (entry : UnitEntry) : Option FailedServiceRow :=
  let unitValue := normalizeSystemdUnitFileName (valueOrEmpty entry.unit)
  let activeValue := valueOrEmpty entry.activeState
  if ascii ".service" <:+ unitValue ∧ activeValue = ascii "failed" then
    some { unit := unitValue, loadState := valueOrEmpty entry.loadState, activeState := activeValue,
           subState := valueOrEmpty entry.subState, description := valueOrEmpty entry.description }
  else none

/-- The row of a service that is enabled. -/
def enabledServiceRow (entry : UnitFileEntry) : Option EnabledServiceRow :=
  let unitValue := normalizeSystemdUnitFileName (valueOrEmpty entry.unit)
  let stateValue := valueOrEmpty entry.state
  if ascii ".service" <:+ unitValue ∧ (stateValue = ascii "enabled" ∨ stateValue = ascii "enabled-runtime") then
    some { unit := unitValue, state := stateValue }
  else none

/-- `SystemdUnitsTool::call` -/
def unitsCall (reply : ListReply UnitEntry) (timestamp : Bytes) (request : ToolRequest) :
    Option ToolResponse :=
  match reply.read unitMessages with
  | .error message => return errorResponse request message
  | .ok entries => do
    let (rows, hasMoreRows) := collect maxUnits (entries.map unitRow)
    let body ← formatSystemdUnitsListBody rows hasMoreRows
    return okResponse request (ascii "systemd.units.list") (ascii "systemd units listed")
      (ascii "bounded systemd unit list") body timestamp

/-- `FailedServicesTool::call` -/
def failedServicesCall (reply : ListReply UnitEntry) (timestamp : Bytes) (request : ToolRequest) :
    Option ToolResponse :=
  match reply.read unitMessages with
  | .error message => return errorResponse request message
  | .ok entries => do
    let (rows, hasMoreRows) := collect maxFailedServices (entries.filterMap failedServiceRow)
    let body ← formatFailedServicesBody rows hasMoreRows
    return okResponse request (ascii "services.failed") (ascii "failed services listed")
      (ascii "bounded failed service list") body timestamp

/-- `EnabledServicesTool::call` -/
def enabledServicesCall (reply : ListReply UnitFileEntry) (timestamp : Bytes)
    (request : ToolRequest) : Option ToolResponse :=
  match reply.read unitFileMessages with
  | .error message => return errorResponse request message
  | .ok entries => do
    let (rows, hasMoreRows) := collect maxEnabledServices (entries.filterMap enabledServiceRow)
    let body ← formatEnabledServicesBody rows hasMoreRows
    return okResponse request (ascii "services.enabled") (ascii "enabled services listed")
      (ascii "bounded enabled service list") body timestamp

/-! ### The status of one unit -/

/-- The properties of a unit as they are read; one that cannot be read is missing. -/
structure UnitProperties where
  id : Option Bytes
  description : Option Bytes
  loadState : Option Bytes
  activeState : Option Bytes
  subState : Option Bytes
  unitFileState : Option Bytes
  fragmentPath : Option Bytes
  result : Option Bytes
  execMainCode : Option Int
  execMainStatus : Option Int

inductive UnitReply
  | notBuilt
  | noBus
  | noUnit
  | noObjectPath
  | properties (read : UnitProperties)

/-- `read_string_property` -/
def stringProperty (value : Option Bytes) : Bytes := value.getD (ascii "unavailable")

/-- `read_int_property` -/
def intProperty (value : Option Int) : Bytes := (value.map decimalInt).getD (ascii "unavailable")

def unitParam (request : ToolRequest) : Bytes := (request.params.find? (ascii "unit")).getD []

def unitStatusEvidence (unit : Bytes) (read : UnitProperties) : SystemdUnitStatusEvidence :=
  let isService := decide (ascii ".service" <:+ unit)
  { unit
    id := stringProperty read.id
    description := stringProperty read.description
    loadState := stringProperty read.loadState
    activeState := stringProperty read.activeState
    subState := stringProperty read.subState
    unitFileState := stringProperty read.unitFileState
    fragmentPath := stringProperty read.fragmentPath
    isService
    serviceResult := if isService then stringProperty read.result else []
    execMainCode := if isService then intProperty read.execMainCode else []
    execMainStatus := if isService then intProperty read.execMainStatus else [] }

/-- `SystemdUnitStatusTool::call`; the bus is asked for the unit of the request as a C string, the
status is written of the whole of it. -/
def unitStatusCall (reply : Bytes → UnitReply) (timestamp : Bytes) (request : ToolRequest) :
    Option ToolResponse :=
  let unit := unitParam request
  if isBlank unit then
    return errorResponse request (ascii "systemd.unit.status requires a non-empty unit parameter")
  else
    match reply (cString unit) with
    | .notBuilt => return errorResponse request (ascii "systemd support was not built")
    | .noBus => return errorResponse request (ascii "failed to connect to systemd system bus")
    | .noUnit => return errorResponse request (ascii "failed to get systemd unit")
    | .noObjectPath =>
      return errorResponse request (ascii "failed to read systemd unit object path")
    | .properties read => do
      let body ← formatSystemdUnitStatusBody (unitStatusEvidence unit read)
      return okResponse request (ascii "systemd.unit.status") (ascii "systemd unit status read")
        (ascii "bounded systemd status for " ++ unit) body timestamp

end Systemd

end Kasli.Tools
