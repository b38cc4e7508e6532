import Kasli.Tools.FixedCommand
import Kasli.Tools.PackageOrder

/-! The list of installed packages from the query to its rows (`default_package_list_runner` and
`PackageListTool::call` of `tools/package_tool.cpp`). The query writes a line of six columns for
each package. Whatever becomes of the command, the tool lists what is installed, up to its limit,
or answers with an error: a part of the query's output is never taken for all of it. -/

namespace Kasli.Tools.Package

open Core

/-! ### The query -/

/-- A column of the query's output. -/
def IsColumn (column : Bytes) : Prop := column ≠ [] ∧ chr '\t' ∉ column ∧ newline ∉ column

instance (column : Bytes) : Decidable (IsColumn column) := inferInstanceAs (Decidable (_ ∧ _))

structure InstalledPackage where
  name : Bytes
  epoch : Bytes
  version : Bytes
  release : Bytes
  arch : Bytes
  installTime : Bytes
  isColumn : ∀ column ∈ [name, epoch, version, release, arch, installTime], IsColumn column

namespace InstalledPackage

variable (package : InstalledPackage)

def columns : List Bytes :=
  [package.name, package.epoch, package.version, package.release, package.arch, package.installTime]

/-- `%{NAME}\t%{EPOCHNUM}\t%{VERSION}\t%{RELEASE}\t%{ARCH}\t%{INSTALLTIME}` -/
def text : Bytes := [chr '\t'].intercalate package.columns

def row : PackageListRow where
  name := package.name
  epoch := package.epoch
  version := package.version
  release := package.release
  arch := package.arch
  installTime := package.installTime
  source := ascii "rpmdb"

theorem parse_text : parseRpmPackageListLine package.text (ascii "rpmdb") = some package.row := by
  have hsplit : splitTabFields package.text = package.columns :=
    List.splitOn_intercalate _ (fun column h => (package.isColumn column h).2.1)
      (List.cons_ne_nil _ _)
  have hfilled : [] ∉ package.columns := fun h => (package.isColumn [] h).1 rfl
  rw [parseRpmPackageListLine, hsplit]
  exact if_neg hfilled

theorem newline_notMem_text : newline ∉ package.text := by
  have hcolumns := package.isColumn
  have htab : newline ≠ chr '\t' := by decide
  simp only [List.forall_mem_cons] at hcolumns
  obtain ⟨hname, hepoch, hversion, hrelease, harch, htime, -⟩ := hcolumns
  simp only [text, columns, List.intercalate_cons_cons, List.intercalate_singleton, List.mem_append,
    List.mem_singleton, htab, hname.2.2, hepoch.2.2, hversion.2.2, hrelease.2.2, harch.2.2,
    htime.2.2, or_self, not_false_eq_true]

end InstalledPackage

/-- What the query writes. -/
def inventory (packages : List InstalledPackage) : Bytes :=
  (packages.map InstalledPackage.text).flatMap line

theorem parsedPackages_inventory (packages : List InstalledPackage) :
    parsedPackages (inventory packages) = packages.map InstalledPackage.row := by
  have hlines : ∀ s ∈ packages.map InstalledPackage.text, newline ∉ s := by
    rw [List.forall_mem_map]
    exact fun package _ => package.newline_notMem_text
  have hparse : (fun line => parseRpmPackageListLine line (ascii "rpmdb")) ∘ InstalledPackage.text =
      some ∘ InstalledPackage.row :=
    funext InstalledPackage.parse_text
  rw [parsedPackages, inventory, getLines_flatMap_line hlines, List.filterMap_map, hparse,
    List.filterMap_eq_map]

/-! ### The command -/

/-- A child that ends without an error has written all its output, which is read before the end of
the pipe. Of any other child less may be read. -/
def Delivers (written : Bytes) (events : List Event) : Prop :=
  .read .eof ∈ events → .waitNoHang (.child (.exited 0)) ∈ events →
    Supervision.chunks events = written

/-- What `default_package_list_runner` can return when the query would write so much: `rpm` may not
be found, or it is run. -/
inductive Queried (written : Bytes) : PackageCommandResult → Prop
  | missing : Queried written (Supervision.failure 127 (ascii "rpm executable not found"))
  | run (events : List Event) {s : Supervision} {result : PackageCommandResult}
      (h : runs Supervision.step .start events = some s) (hreturned : s.point = .returned result)
      (hdelivers : Delivers written events) : Queried written result

/-- A result without an error has all that was read, up to the end of the pipe, of a child that
ended without one. -/
theorem Supervision.complete_of_returned {events : List Event} {s : Supervision}
    (h : runs step .start events = some s) {result : PackageCommandResult}
    (hreturned : s.point = .returned result) (hok : result.ok = true) :
    .read .eof ∈ events ∧ .waitNoHang (.child (.exited 0)) ∈ events ∧
      result.output = chunks events := by
  rcases List.eq_nil_or_concat events with rfl | ⟨events, e, rfl⟩
  · obtain rfl := Option.some.inj h
    cases hreturned
  rw [List.concat_eq_append] at h ⊢
  obtain ⟨t, ht, hstep⟩ := runs_concat_eq_some.mp h
  obtain ⟨rfl, hfinishing⟩ : e = .closeRead ∧ t.point = .finishing ∧ result = t.result := by
    unfold step at hstep
    split at hstep
    all_goals grind [drained, failure]
  obtain ⟨hp, rfl⟩ := hfinishing
  obtain ⟨houtput, -, heof, hpoint⟩ := outputInv ht
  rw [PointInv, hp] at hpoint
  have hstatus : t.status = .exited 0 := by
    by_contra hne
    rw [Supervision.result, if_pos fun hcode => hne (exitCode_eq_zero hcode)] at hok
    cases hok
  have hreap := (flagInv ht (isReturned_of_step hstep)).flag hpoint.2.2
  rw [hstatus] at hreap
  refine ⟨List.mem_append_left _ (heof hpoint.2.1), List.mem_append_left _ hreap, ?_⟩
  rw [Supervision.result, hstatus, chunks_concat, ← houtput (by rw [hp]; rfl)]
  exact (List.append_nil _).symm

/-- The query gives all its output or an error. -/
theorem Queried.output {written : Bytes} {result : PackageCommandResult}
    (h : Queried written result) (hok : result.ok = true) : result.output = written := by
  cases h with
  | missing => cases hok
  | run events h hreturned hdelivers =>
    obtain ⟨heof, hreap, houtput⟩ := Supervision.complete_of_returned h hreturned hok
    rw [houtput, hdelivers heof hreap]

/-! ### The tool -/

/-- The packages that are listed, in their order, are the first five hundred of the query, and the
list says whether there are more. -/
structure Lists (packages : List InstalledPackage) (rows : List PackageListRow)
    (hasMoreRows : Bool) : Prop where
  sorted : rows.Pairwise fun left right => ¬ packageBefore right left
  perm : rows.Perm ((packages.take maxPackageListRows).map InstalledPackage.row)
  hasMore : hasMoreRows = true ↔ maxPackageListRows < packages.length

/-- However running the query ends, the tool answers with an error and without evidence, or it lists
the packages that are installed. -/
theorem installed_or_error (sorting : Sorting packageBefore) (packages : List InstalledPackage)
    {result : PackageCommandResult} (h : Queried (inventory packages) result) (timestamp : Bytes)
    (request : ToolRequest) :
    (∃ message, packageListCall sorting result timestamp request =
      some (errorResponse request message)) ∨
    ∃ rows hasMoreRows, Lists packages rows hasMoreRows ∧
      packageListCall sorting result timestamp request =
        some (listResponse rows hasMoreRows timestamp request) := by
  cases hok : result.ok with
  | false =>
    left
    rw [packageListCall, hok]
    exact ⟨_, rfl⟩
  | true =>
    right
    have hparsed := parsedPackages_inventory packages
    rw [← h.output hok] at hparsed
    refine ⟨_, _, ⟨sorting.sorted _, ?_, ?_⟩, packageListCall_eq sorting hok timestamp request⟩
    · rw [List.map_take, ← hparsed]
      exact sorting.perm _
    · rw [hparsed, List.length_map, decide_eq_true_eq]

def kernelPackage : InstalledPackage where
  name := ascii "kernel"
  epoch := ascii "0"
  version := ascii "6.8"
  release := ascii "1"
  arch := ascii "x86_64"
  installTime := ascii "1"
  isColumn := by decide

/-- The query of a system with one package. -/
theorem queried_kernel : Queried (inventory [kernelPackage])
    { ok := true, exitCode := 0, output := inventory [kernelPackage], error := [] } :=
  .run (Supervision.launch ++
      [.read (.data ⟨inventory [kernelPackage], by decide, by decide⟩), .read .eof,
        .waitNoHang (.child (.exited 0)), .clock 1, .closeRead])
    rfl rfl fun _ _ => List.append_nil _

theorem installed_or_error_kernel :
    (∃ message, packageListCall packageSorting
        { ok := true, exitCode := 0, output := inventory [kernelPackage], error := [] } []
        packagesQuery = some (errorResponse packagesQuery message)) ∨
      ∃ rows hasMoreRows, Lists [kernelPackage] rows hasMoreRows ∧
        packageListCall packageSorting
          { ok := true, exitCode := 0, output := inventory [kernelPackage], error := [] } []
          packagesQuery = some (listResponse rows hasMoreRows [] packagesQuery) :=
  installed_or_error packageSorting [kernelPackage] queried_kernel [] packagesQuery

end Kasli.Tools.Package
