import Kasli.Data.Selection
import Kasli.Text.Find
import Kasli.Text.Lines
import Kasli.Tools.Systemd

/-! The package tools (`tools/package_tool.cpp`): recent changes read from log files, and
the list of installed packages read from the output of one command. The files, the result
of the command and the order of equal rows are parameters of the calls. -/

namespace Kasli.Tools.Package

open Core

def maxPackageChanges : ℕ := 100
def maxCollectedChanges : ℕ := 2000
def maxPackageListRows : ℕ := 500
def maxBodyBytes : ℕ := 64 * 1024

structure PackageChangeRow where
  timestamp : Bytes
  action : Bytes
  package : Bytes
  source : Bytes
  deriving DecidableEq

structure PackageListRow where
  name : Bytes
  epoch : Bytes
  version : Bytes
  release : Bytes
  arch : Bytes
  installTime : Bytes
  source : Bytes
  deriving DecidableEq

structure PackageCommandResult where
  ok : Bool
  exitCode : Int
  output : Bytes
  error : Bytes
  deriving DecidableEq

/-! ### Parsing -/

def firstToken (value : Bytes) : Bytes := value.takeWhile (· != chr ' ')

def startMarker : Bytes := ascii " start \""

def rpmCallbackAction (line : Bytes) : Option Bytes := do
  let callback := ascii " INFO RPM callback "
  let position ← find line callback
  let actionStart := position + callback.length
  let actionEnd ← findFrom line startMarker actionStart
  let action := slice line actionStart actionEnd
  if action ∈ [ascii "install", ascii "erase", ascii "upgrade", ascii "downgrade", ascii "reinstall"] then
    return action
  else none

def dnf4ActionFromVerb (verb : Bytes) : Bytes :=
  if verb = ascii "Installed" then ascii "install"
  else if verb = ascii "Upgraded" ∨ verb = ascii "Updated" then ascii "upgrade"
  else if verb = ascii "Erased" ∨ verb = ascii "Removed" then ascii "remove"
  else if verb = ascii "Downgraded" then ascii "downgrade"
  else if verb = ascii "Reinstalled" then ascii "reinstall"
  else []

def verbs : List Bytes :=
  [ascii "Installed", ascii "Upgraded", ascii "Updated", ascii "Erased", ascii "Removed",
    ascii "Downgraded", ascii "Reinstalled"]

/-- The row of an RPM callback line. -/
def callbackRow (line source action : Bytes) : Option PackageChangeRow := do
  let packageStart ← find line startMarker
  let valueStart := packageStart + startMarker.length
  let valueEnd ← findFrom line (ascii "\"") valueStart
  if valueEnd = valueStart then none
  else
    return { timestamp := firstToken line, action,
             package := slice line valueStart valueEnd, source }

/-- The row of the first verb that the line has. -/
def verbRow (line source : Bytes) : List Bytes → Option PackageChangeRow
  | [] => none
  | verb :: verbs =>
    let marker := ascii " INFO " ++ verb ++ ascii ": "
    match find line marker with
    | none => verbRow line source verbs
    | some position =>
      let packageStart := position + marker.length
      if packageStart ≥ line.length then none
      else
        some { timestamp := firstToken line, action := dnf4ActionFromVerb verb,
               package := line.drop packageStart, source }

def parsePackageChangeLogLine (line source : Bytes) : Option PackageChangeRow :=
  match rpmCallbackAction line with
  | some action => callbackRow line source action
  | none => verbRow line source verbs

def splitTabFields (line : Bytes) : List Bytes := line.splitOn (chr '\t')

/-- Six fields, none of them empty. -/
def parseRpmPackageListLine (line source : Bytes) : Option PackageListRow :=
  match splitTabFields line with
  | [name, epoch, version, release, arch, installTime] =>
    if [] ∈ [name, epoch, version, release, arch, installTime] then none
    else some { name, epoch, version, release, arch, installTime, source }
  | _ => none

/-! ### Bodies -/

def formatPackageChangeRow (row : PackageChangeRow) : Bytes :=
  ascii "timestamp=" ++ redactLikelySecret row.timestamp ++
    ascii " action=" ++ redactLikelySecret row.action ++
    ascii " package=" ++ redactLikelySecret row.package ++
    ascii " source=" ++ redactLikelySecret row.source ++ ascii "\n"

def formatPackageListRow (row : PackageListRow) : Bytes :=
  ascii "name=" ++ redactLikelySecret row.name ++
    ascii " epoch=" ++ redactLikelySecret row.epoch ++
    ascii " version=" ++ redactLikelySecret row.version ++
    ascii " release=" ++ redactLikelySecret row.release ++
    ascii " arch=" ++ redactLikelySecret row.arch ++
    ascii " install_time=" ++ redactLikelySecret row.installTime ++
    ascii " source=" ++ redactLikelySecret row.source ++ ascii "\n"

def packageChangesHeader (rows : ℕ) : List Bytes :=
  countHeader (ascii "package_changes_count=") (ascii "no_package_changes=true\n") rows

def formatPackageRecentChangesBody (rows : List PackageChangeRow)
    (hasMoreRows : Bool) : Option Bytes :=
  Body.formatRows maxBodyBytes (packageChangesHeader rows.length)
    (rows.map formatPackageChangeRow) hasMoreRows

def packagesHeader (rows : ℕ) : List Bytes := countHeader (ascii "packages_count=")
    (ascii "no_packages=true\n") rows

def formatPackageListBody (rows : List PackageListRow) (hasMoreRows : Bool) : Option Bytes :=
  Body.formatRows maxBodyBytes (packagesHeader rows.length)
    (rows.map formatPackageListRow) hasMoreRows

/-! ### Calls -/

/-- A log file by its path; one that is no regular file or cannot be opened has no text. -/
structure LogFile where
  path : Bytes
  text : Option Bytes

/-- Later timestamps first. -/
def laterChange (left right : PackageChangeRow) : Bool := right.timestamp < left.timestamp

/-- Some order of equal timestamps: the order they come in. -/
def changeSorting : Sorting laterChange :=
  .merge laterChange
    (by
      intro a b c hab hbc
      simp only [laterChange, decide_eq_true_eq, List.not_lt] at *
      exact List.le_trans hbc hab)
    (by
      intro a b h
      simp only [laterChange, decide_eq_true_eq, List.not_lt] at *
      exact List.le_of_lt h)

def parsedChanges (logs : List LogFile) : List PackageChangeRow :=
  logs.flatMap fun log =>
    (getLines (log.text.getD [])).filterMap fun line => parsePackageChangeLogLine line log.path

/-- `PackageRecentChangesTool::call` -/
def packageRecentChangesCall (sorting : Sorting laterChange) (logs : List LogFile)
    (timestamp : Bytes) (request : ToolRequest) : Option ToolResponse :=
  if logs.all fun log => log.text.isNone then
    return errorResponse request (ascii "package history logs not found")
  else do
    let (rows, hasMoreRows) := collect maxCollectedChanges (parsedChanges logs)
    let sorted := sorting.sort rows
    let body ← formatPackageRecentChangesBody (sorted.take maxPackageChanges)
      (hasMoreRows || maxPackageChanges < sorted.length)
    return okResponse request (ascii "packages.recent_changes")
      (ascii "recent package changes listed")
      (ascii "bounded recent package changes") body timestamp

/-- By name, then by architecture. -/
def packageBefore (left right : PackageListRow) : Bool :=
  if left.name = right.name then left.arch < right.arch else left.name < right.name

theorem packageBefore_iff (left right : PackageListRow) : packageBefore left right ↔
    left.name < right.name ∨ left.name = right.name ∧ left.arch < right.arch := by
  unfold packageBefore
  split_ifs with h
  · simp [h, Bytes.lt_irrefl]
  · simp [h]

/-- Some order of equal packages: the order they come in. -/
def packageSorting : Sorting packageBefore :=
  .merge packageBefore
    (by
      intro a b c hab hbc
      rw [packageBefore_iff, not_or, not_and, List.not_lt, List.not_lt] at *
      obtain ⟨hab, hab'⟩ := hab
      obtain ⟨hbc, hbc'⟩ := hbc
      refine ⟨List.le_trans hab hbc, fun hca => ?_⟩
      have hba : b.name = a.name := List.le_antisymm (hca ▸ hbc) hab
      exact List.le_trans (hab' hba) (hbc' (hca.trans hba.symm)))
    (by
      intro a b h
      rw [packageBefore_iff] at *
      rcases h with h | ⟨hname, harch⟩
      · rintro (h' | ⟨hname, -⟩)
        · exact Bytes.lt_irrefl _ (Bytes.lt_trans h h')
        · exact Bytes.lt_irrefl _ (hname ▸ h)
      · rintro (h' | ⟨-, h'⟩)
        · exact Bytes.lt_irrefl _ (hname ▸ h')
        · exact Bytes.lt_irrefl _ (Bytes.lt_trans harch h'))

/-- `PackageListTool::call` -/
def packageListCall (sorting : Sorting packageBefore) (result : PackageCommandResult)
    (timestamp : Bytes) (request : ToolRequest) : Option ToolResponse :=
  if !result.ok then
    return errorResponse request
      (if result.error = [] then ascii "package inventory command failed" else result.error)
  else do
    let (rows, hasMoreRows) := collect maxPackageListRows
      ((getLines result.output).filterMap fun line => parseRpmPackageListLine line (ascii "rpmdb"))
    let body ← formatPackageListBody (sorting.sort rows) hasMoreRows
    return okResponse request (ascii "packages.list") (ascii "installed packages listed")
      (ascii "bounded installed package list") body timestamp

end Kasli.Tools.Package
