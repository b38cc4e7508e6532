import Kasli.Tools.Package

/-! How the list of packages depends on the order in which they are queried. The packages are
sorted by name and architecture, which does not tell versions of one package apart, and the
first five hundred are kept before they are sorted. What does not depend on the order is
how many are listed. -/

namespace Kasli.Tools.Package

open Core

/-- The rows of the well-formed lines, in the order of the query. -/
def parsedPackages (output : Bytes) : List PackageListRow :=
  (getLines output).filterMap fun line => parseRpmPackageListLine line (ascii "rpmdb")

/-- The rows that are listed. -/
def keptPackages (output : Bytes) : List PackageListRow :=
  (parsedPackages output).take maxPackageListRows

/-- The response with these rows. -/
def listResponse (rows : List PackageListRow) (hasMoreRows : Bool) (timestamp : Bytes)
    (request : ToolRequest) : ToolResponse :=
  okResponse request (ascii "packages.list") (ascii "installed packages listed")
    (ascii "bounded installed package list") (capped truncatedMarker maxBodyBytes
      (Body.rowsText (packagesHeader rows.length) (rows.map formatPackageListRow) hasMoreRows))
        timestamp

theorem packageListCall_eq (sorting : Sorting packageBefore) {result : PackageCommandResult}
    (hok : result.ok = true)
    (timestamp : Bytes) (request : ToolRequest) : packageListCall sorting result timestamp request =
      some (listResponse (sorting.sort (keptPackages result.output))
        (decide (maxPackageListRows < (parsedPackages result.output).length))
          timestamp request) := by
  have hbody : formatPackageListBody (sorting.sort (keptPackages result.output))
      (decide (maxPackageListRows < (parsedPackages result.output).length)) = some _ :=
    Body.formatRows_eq (by decide) _ _ _
  rw [packageListCall, hok, if_neg (by decide), collect_eq]
  dsimp only
  rw [← parsedPackages, ← keptPackages, hbody]
  rfl

/-- Rows of one name and architecture are written alike. -/
def Alike (rows : List PackageListRow) : Prop :=
  ∀ a ∈ rows, ∀ b ∈ rows, a.name = b.name → a.arch = b.arch →
    formatPackageListRow a = formatPackageListRow b

/-- Sorted rows of one multiset are written alike one after another, if rows of one name and
architecture are. -/
theorem map_format_eq (sorting : Sorting packageBefore) {rows rows' : List PackageListRow}
    (hperm : rows.Perm rows') (halike : Alike rows) : (sorting.sort rows).map formatPackageListRow =
      (sorting.sort rows').map formatPackageListRow := by
  let keyed (row : PackageListRow) := (row.name, row.arch, formatPackageListRow row)
  have hsorted : ∀ l, ((sorting.sort l).map keyed).Pairwise fun x y =>
      ¬ (y.1 < x.1 ∨ y.1 = x.1 ∧ y.2.1 < x.2.1) := by
    intro l
    rw [List.pairwise_map]
    exact (sorting.sorted l).imp fun h => by rwa [packageBefore_iff] at h
  have hkeyed : (sorting.sort rows).map keyed = (sorting.sort rows').map keyed := by
    refine List.Perm.eq_of_pairwise ?_ (hsorted rows) (hsorted rows')
      ((((sorting.perm rows).trans hperm).trans (sorting.perm rows').symm).map keyed)
    intro x y hx hy hxy hyx
    obtain ⟨a, ha, rfl⟩ := List.mem_map.mp hx
    obtain ⟨b, hb, rfl⟩ := List.mem_map.mp hy
    rw [not_or, not_and, List.not_lt, List.not_lt] at hxy hyx
    have hname : a.name = b.name := List.le_antisymm hxy.1 hyx.1
    have harch : a.arch = b.arch := List.le_antisymm (hxy.2 hname.symm) (hyx.2 hname)
    have htext := halike a ((sorting.perm rows).mem_iff.mp ha) b
      (hperm.mem_iff.mpr ((sorting.perm rows').mem_iff.mp hb)) hname harch
    simp only [keyed, hname, harch, htext]
  have htexts := congrArg (List.map fun x : Bytes × Bytes × Bytes => x.2.2) hkeyed
  rwa [List.map_map, List.map_map] at htexts

theorem parsedPackages_perm {output output' : Bytes}
    (h : (getLines output).Perm (getLines output')) :
    (parsedPackages output).Perm (parsedPackages output') := h.filterMap _

/-- The same rows are kept, in some order. -/
def SameKept (output output' : Bytes) : Prop := (keptPackages output).Perm (keptPackages output')

/-- At most five hundred rows are all kept. -/
theorem sameKept_of_le {output output' : Bytes} (h : (getLines output).Perm (getLines output'))
    (hle : (parsedPackages output).length ≤ maxPackageListRows) : SameKept output output' := by
  have hperm := parsedPackages_perm h
  rw [SameKept, keptPackages, keptPackages, List.take_of_length_le hle,
    List.take_of_length_le (hperm.length_eq ▸ hle)]
  exact hperm

/-- Two outputs of the same lines list equally many rows and say alike whether there are more.
They list the same rows when the first five hundred are the same, as they are when there are no
more, and in the same order when rows of one name and architecture are written alike. -/
theorem packages_unordered (sorting : Sorting packageBefore) {result result' : PackageCommandResult}
    (hok : result.ok = true) (hok' : result'.ok = true)
    (hlines : (getLines result.output).Perm (getLines result'.output))
    (timestamp : Bytes) (request : ToolRequest) :
    (∃ rows rows' hasMoreRows,
      packageListCall sorting result timestamp request =
        some (listResponse rows hasMoreRows timestamp request) ∧
      packageListCall sorting result' timestamp request =
        some (listResponse rows' hasMoreRows timestamp request) ∧
      rows.length = rows'.length ∧ (SameKept result.output result'.output → rows.Perm rows')) ∧
    ((parsedPackages result.output).length ≤ maxPackageListRows →
      SameKept result.output result'.output) ∧
    (SameKept result.output result'.output → Alike (keptPackages result.output) →
      packageListCall sorting result timestamp request =
        packageListCall sorting result' timestamp request) := by
  have hparsed := parsedPackages_perm hlines
  have hlength : (sorting.sort (keptPackages result.output)).length =
      (sorting.sort (keptPackages result'.output)).length := by
    rw [sorting.length_sort, sorting.length_sort, keptPackages, keptPackages, List.length_take,
      List.length_take, hparsed.length_eq]
  refine ⟨⟨sorting.sort (keptPackages result.output), sorting.sort (keptPackages result'.output), _,
    packageListCall_eq sorting hok timestamp request, ?_, hlength, fun h => ?_⟩,
      sameKept_of_le hlines, fun h halike => ?_⟩
  · rw [packageListCall_eq sorting hok', hparsed.length_eq]
  · exact ((sorting.perm _).trans h).trans (sorting.perm _).symm
  · rw [packageListCall_eq sorting hok, packageListCall_eq sorting hok', listResponse,
      listResponse, hlength, map_format_eq sorting h halike, hparsed.length_eq]

/-! ### Two versions of one package -/

def packagesQuery : ToolRequest :=
  { id := ascii "r1", toolName := ascii "packages.list", risk := .readOnly, params := .empty }

def queried (output : Bytes) : PackageCommandResult :=
  { ok := true, exitCode := 0, output, error := [] }

/-- The same two packages, and one that is installed twice, in two orders. -/
def inOrder : PackageCommandResult :=
  queried (ascii "bash\t0\t5\t1\tx\t1\nvim\t0\t9\t1\tx\t2\nvim\t0\t9\t1\tx\t2\n")

def outOfOrder : PackageCommandResult :=
  queried (ascii "vim\t0\t9\t1\tx\t2\nbash\t0\t5\t1\tx\t1\nvim\t0\t9\t1\tx\t2\n")

theorem packages_unordered_three :
    (∃ rows rows' hasMoreRows,
      packageListCall packageSorting inOrder [] packagesQuery =
        some (listResponse rows hasMoreRows [] packagesQuery) ∧
      packageListCall packageSorting outOfOrder [] packagesQuery =
        some (listResponse rows' hasMoreRows [] packagesQuery) ∧
      rows.length = rows'.length ∧
        (SameKept inOrder.output outOfOrder.output → rows.Perm rows')) ∧
    ((parsedPackages inOrder.output).length ≤ maxPackageListRows →
      SameKept inOrder.output outOfOrder.output) ∧
    (SameKept inOrder.output outOfOrder.output → Alike (keptPackages inOrder.output) →
      packageListCall packageSorting inOrder [] packagesQuery =
        packageListCall packageSorting outOfOrder [] packagesQuery) :=
  packages_unordered packageSorting rfl rfl (by decide +kernel) [] packagesQuery

/-- A line of one version of a package. -/
def versionLine (version : Bytes) : Bytes := ascii "k\t0\t" ++ version ++ ascii "\t1\tx\t1"

def versionRow (version : Bytes) : PackageListRow :=
  { name := ascii "k", epoch := ascii "0", version, release := ascii "1", arch := ascii "x",
    installTime := ascii "1", source := ascii "rpmdb" }

/-- Two versions are listed in the order they come in. -/
theorem packageListCall_versions {a b : Bytes}
    (hlines : ∀ s ∈ [versionLine a, versionLine b], newline ∉ s)
    (ha : parseRpmPackageListLine (versionLine a) (ascii "rpmdb") = some (versionRow a))
    (hb : parseRpmPackageListLine (versionLine b) (ascii "rpmdb") = some (versionRow b)) :
    packageListCall packageSorting (queried ([versionLine a, versionLine b].flatMap line))
      [] packagesQuery =
      some (listResponse [versionRow a, versionRow b] false [] packagesQuery) := by
  have hparsed : parsedPackages ([versionLine a, versionLine b].flatMap line) =
      [versionRow a, versionRow b] := by
    rw [parsedPackages, getLines_flatMap_line hlines]
    simp only [List.filterMap_cons, List.filterMap_nil, ha, hb]
  have hsort : packageSorting.sort [versionRow a, versionRow b] = [versionRow a, versionRow b] :=
    List.mergeSort_of_pairwise (List.pairwise_pair.mpr rfl)
  rw [packageListCall_eq packageSorting rfl, queried, keptPackages, hparsed]
  exact congrArg (fun rows => some (listResponse rows false [] packagesQuery)) hsort

/-- The order of the query decides which version is listed first. -/
theorem versions_in_query_order : ¬ ∀ (sorting : Sorting packageBefore)
    (result result' : PackageCommandResult)
    (timestamp : Bytes) (request : ToolRequest), result.ok = true → result'.ok = true →
    (getLines result.output).Perm (getLines result'.output) →
    packageListCall sorting result timestamp request =
      packageListCall sorting result' timestamp request := by
  intro h
  have hone : parseRpmPackageListLine (versionLine (ascii "1")) (ascii "rpmdb") =
      some (versionRow (ascii "1")) := by
    decide +kernel
  have htwo : parseRpmPackageListLine (versionLine (ascii "2")) (ascii "rpmdb") =
      some (versionRow (ascii "2")) := by
    decide +kernel
  have hlines : ∀ s ∈ [versionLine (ascii "1"), versionLine (ascii "2")], newline ∉ s := by decide
  have hlines' : ∀ s ∈ [versionLine (ascii "2"), versionLine (ascii "1")], newline ∉ s := by decide
  have hsame := h packageSorting
    (queried ([versionLine (ascii "1"), versionLine (ascii "2")].flatMap line))
    (queried ([versionLine (ascii "2"), versionLine (ascii "1")].flatMap line))
    [] packagesQuery rfl rfl (by
      rw [queried, queried, getLines_flatMap_line hlines, getLines_flatMap_line hlines']
      exact List.Perm.swap _ _ _)
  rw [packageListCall_versions hlines hone htwo,
    packageListCall_versions hlines' htwo hone] at hsame
  have hbody := congrArg (fun response : ToolResponse => response.evidence.map Evidence.body)
    (Option.some.inj hsame)
  exact absurd hbody (by decide +kernel)

end Kasli.Tools.Package
