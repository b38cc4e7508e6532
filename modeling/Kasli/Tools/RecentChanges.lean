import Kasli.Tools.Package

/-! Which package changes are reported. The changes of all logs are collected in the order of the
files, two thousand at most, and the hundred with the latest timestamps are reported of
those. So they are the latest of all when no change that was not collected belongs among
them. -/

namespace Kasli.Tools.Package

open Core

/-- The rows that are reported, and whether there are more. -/
def reportedChanges (sorting : Sorting laterChange) (logs : List LogFile) :
    List PackageChangeRow × Bool :=
  let (rows, hasMoreRows) := collect maxCollectedChanges (parsedChanges logs)
  let sorted := sorting.sort rows
  (sorted.take maxPackageChanges, hasMoreRows || maxPackageChanges < sorted.length)

theorem reportedChanges_eq (sorting : Sorting laterChange) (logs : List LogFile) :
    reportedChanges sorting logs =
    ((sorting.sort ((parsedChanges logs).take maxCollectedChanges)).take maxPackageChanges,
      decide (maxPackageChanges < (parsedChanges logs).length)) := by
  have hmore : (decide (maxCollectedChanges < (parsedChanges logs).length) ||
    decide (maxPackageChanges <
      (sorting.sort ((parsedChanges logs).take maxCollectedChanges)).length)) =
        decide (maxPackageChanges < (parsedChanges logs).length) := by
    rw [← Bool.decide_or, decide_eq_decide, sorting.length_sort, List.length_take,
      maxCollectedChanges, maxPackageChanges]
    omega
  rw [reportedChanges, collect_eq]
  dsimp only
  rw [hmore]

/-- The response, when a log could be read. -/
theorem packageRecentChangesCall_eq (sorting : Sorting laterChange) {logs : List LogFile}
    (hread : ∃ log ∈ logs, log.text ≠ none) (timestamp : Bytes) (request : ToolRequest) :
    packageRecentChangesCall sorting logs timestamp request =
      some (okResponse request (ascii "packages.recent_changes")
        (ascii "recent package changes listed")
        (ascii "bounded recent package changes") (capped truncatedMarker maxBodyBytes
          (Body.rowsText (packageChangesHeader (reportedChanges sorting logs).1.length)
            ((reportedChanges sorting logs).1.map formatPackageChangeRow)
              (reportedChanges sorting logs).2)) timestamp) := by
  have hany : (logs.all fun log => log.text.isNone) = false := by
    obtain ⟨log, hlog, htext⟩ := hread
    exact List.all_eq_false.mpr ⟨log, hlog, by simpa using htext⟩
  have hbody : formatPackageRecentChangesBody (reportedChanges sorting logs).1
      (reportedChanges sorting logs).2 = some _ :=
    Body.formatRows_eq (by decide) _ _ _
  rw [packageRecentChangesCall, hany, if_neg (by decide), collect_eq]
  rw [reportedChanges, collect_eq] at hbody ⊢
  dsimp only at hbody ⊢
  rw [hbody]
  rfl

/-- The rows are a hundred of `parsed`, or all of them, with the latest first, and none that was
left out is later than one of them. -/
def MostRecent (parsed rows : List PackageChangeRow) (hasMoreRows : Bool) : Prop :=
  ∃ leftOut, parsed.Perm (rows ++ leftOut) ∧ (rows.Pairwise fun a b => ¬ laterChange b a) ∧
    rows.length = min maxPackageChanges parsed.length ∧
    (∀ row ∈ leftOut, ∀ reported ∈ rows, ¬ laterChange row reported) ∧
      (hasMoreRows = true ↔ leftOut ≠ [])

/-- A row that is not collected is not later than a hundred of those that are. -/
def Collected (parsed : List PackageChangeRow) : Prop :=
  ∀ row ∈ parsed.drop maxCollectedChanges,
    maxPackageChanges ≤ (parsed.take maxCollectedChanges).countP fun kept => !laterChange row kept

theorem laterChange_trans (a b c : PackageChangeRow) (hab : ¬ laterChange b a)
    (hbc : ¬ laterChange c b) : ¬ laterChange c a := by
  simp only [laterChange, decide_eq_true_eq, List.not_lt] at *
  exact List.le_trans hbc hab

section

variable (sorting : Sorting laterChange) (logs : List LogFile)

/-- What is left out: what comes after the first hundred, and what was not collected. -/
def leftOut : List PackageChangeRow :=
  (sorting.sort ((parsedChanges logs).take maxCollectedChanges)).drop maxPackageChanges ++
    (parsedChanges logs).drop maxCollectedChanges

theorem perm_reported : (parsedChanges logs).Perm
    ((reportedChanges sorting logs).1 ++ leftOut sorting logs) := by
  rw [reportedChanges_eq, leftOut, ← List.append_assoc, List.take_append_drop]
  have hperm := (sorting.perm ((parsedChanges logs).take maxCollectedChanges)).symm.append_right
    ((parsedChanges logs).drop maxCollectedChanges)
  rwa [List.take_append_drop] at hperm

theorem length_reported :
    (reportedChanges sorting logs).1.length =
    min maxPackageChanges (parsedChanges logs).length := by
  rw [reportedChanges_eq, List.length_take, sorting.length_sort, List.length_take,
    maxCollectedChanges, maxPackageChanges]
  omega

theorem sorted_reported : (reportedChanges sorting logs).1.Pairwise fun a b =>
    ¬ laterChange b a := by
  rw [reportedChanges_eq]
  exact (sorting.sorted _).sublist (List.take_sublist _ _)

theorem hasMoreRows_iff : (reportedChanges sorting logs).2 = true ↔ leftOut sorting logs ≠ [] := by
  have hlength := (perm_reported sorting logs).length_eq
  rw [List.length_append, length_reported] at hlength
  rw [← List.length_pos_iff_ne_nil, reportedChanges_eq, decide_eq_true_eq]
  omega

/-- Of the rows that were collected, those that are left out are not later. -/
theorem not_later_of_leftOut :
    (∀ row ∈ leftOut sorting logs, ∀ reported ∈ (reportedChanges sorting logs).1,
    ¬ laterChange row reported) ↔ Collected (parsedChanges logs) := by
  rw [reportedChanges_eq, leftOut, List.forall_mem_append, Collected]
  have hcollected : ∀ row ∈
    (sorting.sort ((parsedChanges logs).take maxCollectedChanges)).drop maxPackageChanges,
      ∀ reported ∈ (sorting.sort ((parsedChanges logs).take maxCollectedChanges)).take
        maxPackageChanges, ¬ laterChange row reported := fun row hrow reported hreported =>
          sorting.not_less_of_drop hreported hrow
  rw [and_iff_right hcollected]
  refine forall_congr' fun row => forall_congr' fun hrow => ?_
  -- when a row is not collected, two thousand are
  have hlength : min maxPackageChanges ((parsedChanges logs).take maxCollectedChanges).length =
      maxPackageChanges := by
    have hlong := List.length_pos_of_mem hrow
    rw [List.length_drop] at hlong
    rw [List.length_take, maxPackageChanges, maxCollectedChanges] at *
    omega
  rw [sorting.forall_take_iff laterChange_trans, hlength]

/-- The reported changes are the most recent ones exactly when enough of those that are were
collected. -/
theorem mostRecent_iff : MostRecent (parsedChanges logs)
    (reportedChanges sorting logs).1 (reportedChanges sorting logs).2 ↔
    Collected (parsedChanges logs) := by
  constructor
  · rintro ⟨other, hperm, -, -, hlater, -⟩
    have hsame : other.Perm (leftOut sorting logs) :=
      (List.perm_append_left_iff _).mp (hperm.symm.trans (perm_reported sorting logs))
    exact (not_later_of_leftOut sorting logs).mp fun row hrow => hlater row (hsame.mem_iff.mpr hrow)
  · intro h
    exact ⟨leftOut sorting logs, perm_reported sorting logs, sorted_reported sorting logs,
      length_reported sorting logs, (not_later_of_leftOut sorting logs).mpr h,
      hasMoreRows_iff sorting logs⟩

end

/-- The rows of the response are the most recent changes, exactly when of the changes that were
not collected none belongs among them. -/
theorem recent_changes_iff (sorting : Sorting laterChange) {logs : List LogFile}
    (hread : ∃ log ∈ logs, log.text ≠ none) (timestamp : Bytes) (request : ToolRequest) :
    ∃ rows hasMoreRows, packageRecentChangesCall sorting logs timestamp request =
      some (okResponse request (ascii "packages.recent_changes")
        (ascii "recent package changes listed")
        (ascii "bounded recent package changes") (capped truncatedMarker maxBodyBytes
          (Body.rowsText (packageChangesHeader rows.length) (rows.map formatPackageChangeRow)
            hasMoreRows)) timestamp) ∧
      (MostRecent (parsedChanges logs) rows hasMoreRows ↔ Collected (parsedChanges logs)) :=
  ⟨_, _, packageRecentChangesCall_eq sorting hread timestamp request, mostRecent_iff sorting logs⟩

/-! ### A log of more than two thousand changes -/

def changesRequest : ToolRequest :=
  { id := ascii "r1", toolName := ascii "packages.recent_changes", risk := .readOnly,
    params := .empty }

def oldLine : Bytes := ascii "2025-01-01 INFO Installed: old"

def newLine : Bytes := ascii "2026-01-01 INFO Installed: new"

/-- A log of two changes. -/
def shortLog : LogFile :=
  { path := ascii "dnf5.log", text := some ([oldLine, newLine].flatMap line) }

theorem recent_changes_iff_two : ∃ rows hasMoreRows,
    packageRecentChangesCall changeSorting [shortLog] [] changesRequest =
      some (okResponse changesRequest (ascii "packages.recent_changes")
        (ascii "recent package changes listed")
        (ascii "bounded recent package changes") (capped truncatedMarker maxBodyBytes
          (Body.rowsText (packageChangesHeader rows.length) (rows.map formatPackageChangeRow)
            hasMoreRows)) []) ∧
      (MostRecent (parsedChanges [shortLog]) rows hasMoreRows ↔
        Collected (parsedChanges [shortLog])) :=
  recent_changes_iff changeSorting ⟨_, List.mem_singleton_self _, by simp [shortLog]⟩ []
    changesRequest

def changeAt (timestamp package : Bytes) : PackageChangeRow :=
  { timestamp, action := ascii "install", package, source := ascii "dnf5.log" }

/-- The log begins with two thousand old changes. -/
def longLog : LogFile :=
  { path := ascii "dnf5.log",
    text := some ((List.replicate 2000 oldLine ++ [newLine]).flatMap line) }

theorem parsedChanges_longLog : parsedChanges [longLog] =
    List.replicate 2000 (changeAt (ascii "2025-01-01") (ascii "old")) ++
      [changeAt (ascii "2026-01-01") (ascii "new")] := by
  have hold : parsePackageChangeLogLine oldLine (ascii "dnf5.log") =
      some (changeAt (ascii "2025-01-01") (ascii "old")) := by decide +kernel
  have hnew : parsePackageChangeLogLine newLine (ascii "dnf5.log") =
      some (changeAt (ascii "2026-01-01") (ascii "new")) := by decide +kernel
  have hlines : ∀ s ∈ List.replicate 2000 oldLine ++ [newLine], newline ∉ s := by
    rw [List.forall_mem_append, List.forall_mem_singleton]
    refine ⟨fun s hs => ?_, by decide⟩
    rw [List.eq_of_mem_replicate hs]
    decide
  have hone : parsedChanges [longLog] =
      (List.replicate 2000 oldLine ++ [newLine]).filterMap fun line =>
        parsePackageChangeLogLine line (ascii "dnf5.log") := by
    rw [parsedChanges, List.flatMap_singleton, longLog, Option.getD_some,
      getLines_flatMap_line hlines]
  let parse (line : Bytes) := parsePackageChangeLogLine line (ascii "dnf5.log")
  have hrest : [newLine].filterMap parse = [changeAt (ascii "2026-01-01") (ascii "new")] :=
    List.filterMap_cons_some hnew
  have hbefore : (List.replicate 2000 oldLine).filterMap parse =
      List.replicate 2000 (changeAt (ascii "2025-01-01") (ascii "old")) :=
        List.filterMap_replicate_of_some hold
  rw [hone, List.filterMap_append]
  exact congrArg₂ (· ++ ·) hbefore hrest

/-- The last change of the log is the most recent one, and it is not reported. -/
theorem latest_change_left_out : ¬ ∀ (sorting : Sorting laterChange) (logs : List LogFile),
    (∀ log ∈ logs, log.text ≠ none) → MostRecent (parsedChanges logs)
      (reportedChanges sorting logs).1 (reportedChanges sorting logs).2 := by
  intro h
  have hread : ∀ log ∈ [longLog], log.text ≠ none := by
    rw [List.forall_mem_singleton]
    exact Option.some_ne_none _
  have hcollected := (mostRecent_iff changeSorting [longLog]).mp (h changeSorting [longLog] hread)
  rw [Collected, parsedChanges_longLog] at hcollected
  have hlength : (List.replicate 2000 (changeAt (ascii "2025-01-01") (ascii "old"))).length =
      maxCollectedChanges :=
    List.length_replicate
  rw [← hlength, List.drop_left, List.take_left] at hcollected
  have hlater : laterChange (changeAt (ascii "2026-01-01") (ascii "new"))
    (changeAt (ascii "2025-01-01") (ascii "old")) =
      true := by decide +kernel
  have hcount := hcollected _ (List.mem_singleton_self _)
  rw [List.countP_replicate, hlater, if_neg (by decide), maxPackageChanges] at hcount
  omega

end Kasli.Tools.Package
