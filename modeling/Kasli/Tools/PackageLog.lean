import Kasli.Tools.Package

/-! The lines of package logs that RPM callbacks write. The action is searched after the words of
the callback, and the package from the beginning of the line. A line in which a package
starts before these words gives the action of one event and the package of another. -/

namespace Kasli.Tools.Package

def callbackMarker : Bytes := ascii " INFO RPM callback "

def callbackActions : List Bytes :=
  [ascii "install", ascii "erase", ascii "upgrade", ascii "downgrade", ascii "reinstall"]

def quote : Bytes := ascii "\""

theorem rpmCallbackAction_eq_some {line action : Bytes} : rpmCallbackAction line = some action ↔
    ∃ position actionEnd, find line callbackMarker = some position ∧
      findFrom line startMarker (position + callbackMarker.length) = some actionEnd ∧
      slice line (position + callbackMarker.length) actionEnd = action ∧
        action ∈ callbackActions := by
  have hmarker : ascii " INFO RPM callback " = callbackMarker := rfl
  unfold rpmCallbackAction
  simp only [hmarker, Option.bind_eq_bind, Option.bind_eq_some_iff]
  constructor
  · rintro ⟨position, hposition, actionEnd, hend, h⟩
    split_ifs at h with hmem
    obtain rfl := Option.some.inj h
    exact ⟨position, actionEnd, hposition, hend, rfl, hmem⟩
  · rintro ⟨position, actionEnd, hposition, hend, rfl, hmem⟩
    exact ⟨position, hposition, actionEnd, hend, if_pos hmem⟩

theorem callbackRow_eq_some {line source action : Bytes} {row : PackageChangeRow} :
    callbackRow line source action = some row ↔ ∃ start stop, find line startMarker = some start ∧
      findFrom line quote (start + startMarker.length) = some stop ∧
        stop ≠ start + startMarker.length ∧
      row = { timestamp := firstToken line, action,
              package := slice line (start + startMarker.length) stop, source } := by
  unfold callbackRow
  simp only [Option.bind_eq_bind, Option.bind_eq_some_iff]
  constructor
  · rintro ⟨start, hstart, stop, hstop, h⟩
    split_ifs at h with hempty
    exact ⟨start, stop, hstart, hstop, hempty, (Option.some.inj h).symm⟩
  · rintro ⟨start, stop, hstart, hstop, hne, rfl⟩
    exact ⟨start, hstart, stop, hstop, if_neg hne⟩

/-- The action and the package of the row are those of one event: the package is read where the
action ends. -/
def OneEvent (line : Bytes) (row : PackageChangeRow) : Prop :=
  ∃ a b, line = a ++ callbackMarker ++ row.action ++ startMarker ++ row.package ++ quote ++ b ∧
    row.package ≠ [] ∧ chr '"' ∉ row.package ∧ find line callbackMarker = some a.length ∧
    find line startMarker = some (a ++ callbackMarker ++ row.action).length

/-- No package starts before the words of the callback end. -/
def StartsAfter (line : Bytes) : Prop :=
  ∀ position start, find line callbackMarker = some position → find line startMarker = some start →
    position + callbackMarker.length ≤ start

theorem oneEvent_iff {line source action : Bytes} {row : PackageChangeRow}
    (haction : rpmCallbackAction line = some action)
    (hrow : parsePackageChangeLogLine line source = some row) :
    OneEvent line row ↔ StartsAfter line := by
  rw [parsePackageChangeLogLine, haction] at hrow
  obtain ⟨position, actionEnd, hposition, hend, rfl, -⟩ := rpmCallbackAction_eq_some.mp haction
  obtain ⟨start, stop, hstart, hstop, hne, rfl⟩ := callbackRow_eq_some.mp hrow
  constructor
  · rintro ⟨a, b, -, -, -, hfind, hfind'⟩ position' start' hposition' hstart'
    obtain rfl := Option.some.inj (hfind.symm.trans hposition')
    obtain rfl := Option.some.inj (hfind'.symm.trans hstart')
    simp only [List.length_append]
    omega
  · intro h
    have hafter := h position start hposition hstart
    obtain ⟨hle, -, hat, hfirst⟩ := findFrom_eq_some.mp hend
    obtain ⟨-, -, hat', hfirst'⟩ := findFrom_eq_some.mp hstart
    -- the first start of a package is the one that ends the action
    obtain rfl : start = actionEnd := by
      rcases Nat.lt_trichotomy start actionEnd with hlt | heq | hgt
      · exact absurd hat' (hfirst start hafter hlt)
      · exact heq
      · exact absurd hat (hfirst' actionEnd (Nat.zero_le _) hgt)
    obtain ⟨hle', hlen', -, -⟩ := findFrom_eq_some.mp hstop
    have hline := drop_eq_of_findFrom hposition
    have hlen := (findFrom_eq_some.mp hposition).2.1
    rw [drop_eq_of_findFrom hend, drop_eq_of_findFrom hstop] at hline
    have hlength : (slice line 0 position).length = position := length_slice (Nat.zero_le _) hlen
    refine ⟨slice line 0 position, line.drop (stop + quote.length), ?_, ?_,
      notMem_slice_of_findFrom hstop, ?_, ?_⟩
    · simpa only [List.drop_zero, List.append_assoc] using hline
    · intro hnil
      have hslice := congrArg List.length hnil
      rw [length_slice hle' hlen', List.length_nil] at hslice
      omega
    · rw [hlength, hposition]
    · have hslice := length_slice hle (findFrom_eq_some.mp hend).2.1
      rw [hstart, List.length_append, List.length_append, hlength, hslice]
      exact congrArg some (by omega)

/-! ### Well-formed lines -/

/-- What a line has before the words of the callback. -/
def lineHead (timestamp pid : Bytes) : Bytes := timestamp ++ (ascii " [" ++ (pid ++ ascii "]"))

section

variable {timestamp pid action package : Bytes} (htimestamp : chr ' ' ∉ timestamp)
    (hpid : chr ' ' ∉ pid)

include htimestamp hpid

/-- A text of a blank and something else than a bracket does not start there. -/
theorem noStart_lineHead {d : UInt8} (hd : d ≠ chr '[') (n s : Bytes) :
    NoStart (chr ' ' :: d :: n) (lineHead timestamp pid) s := by
  have hrest : chr ' ' ∉ ascii "[" ++ (pid ++ ascii "]") := by
    have hopen : chr ' ' ∉ ascii "[" := by decide
    have hclose : chr ' ' ∉ ascii "]" := by decide
    simp [hopen, hpid, hclose]
  have hhead : lineHead timestamp pid = timestamp ++
    ([chr ' '] ++ (ascii "[" ++ (pid ++ ascii "]"))) := rfl
  rw [hhead]
  refine (noStart_of_notMem htimestamp _).append
    (NoStart.append (noStart_of_head ?_) (noStart_of_notMem hrest s))
  intro h
  exact hd (Option.some.inj h).symm

/-- The words of the callback are found after the head. -/
theorem find_callbackMarker (s : Bytes) :
    find (lineHead timestamp pid ++ (callbackMarker ++ s)) callbackMarker =
      some (lineHead timestamp pid).length :=
  find_of_noStart (noStart_lineHead htimestamp hpid (d := chr 'I') (by decide) _ _)
    (List.prefix_append _ _)

omit htimestamp hpid in
theorem noStart_action (haction : action ∈ callbackActions) (s : Bytes) :
    NoStart startMarker action s := by
  have hspaces : ∀ action ∈ callbackActions, chr ' ' ∉ action := by decide
  exact noStart_of_notMem (hspaces action haction) s

omit htimestamp hpid in
theorem noStart_callbackMarker (haction : action ∈ callbackActions) (s : Bytes) :
    NoStart startMarker callbackMarker (action ++ s) := by
  have hwords : callbackMarker =
      [chr ' '] ++ (ascii "INFO" ++
        ([chr ' '] ++ (ascii "RPM" ++ ([chr ' '] ++ (ascii "callback" ++ [chr ' ']))))) := by
    decide
  have hlast : (action ++ s).head? ≠ some (chr 's') := by
    have hheads : ∀ action ∈ callbackActions, action ≠ [] ∧
      action.head? ≠ some (chr 's') := by decide
    obtain ⟨hne, hhead⟩ := hheads action haction
    rwa [List.head?_append_of_ne_nil _ hne]
  have hmarker : startMarker = chr ' ' :: chr 's' :: ascii "tart \"" := by decide
  have hinfo : ∀ t : Bytes, (ascii "INFO" ++ t).head? ≠ some (chr 's') := fun t h =>
    absurd (Option.some.inj h) (by decide : chr 'I' ≠ chr 's')
  have hrpm : ∀ t : Bytes, (ascii "RPM" ++ t).head? ≠ some (chr 's') := fun t h =>
    absurd (Option.some.inj h) (by decide : chr 'R' ≠ chr 's')
  have hcallback : ∀ t : Bytes, (ascii "callback" ++ t).head? ≠ some (chr 's') := fun t h =>
    absurd (Option.some.inj h) (by decide : chr 'c' ≠ chr 's')
  rw [hwords, hmarker]
  refine NoStart.append (noStart_of_head (hinfo _))
    (NoStart.append (noStart_of_notMem (by decide) _) ?_)
  refine NoStart.append (noStart_of_head (hrpm _))
    (NoStart.append (noStart_of_notMem (by decide) _) ?_)
  refine NoStart.append (noStart_of_head (hcallback _))
    (NoStart.append (noStart_of_notMem (by decide) _) ?_)
  exact noStart_of_head hlast

/-- A well-formed line of a callback gives the row of its event. -/
theorem parse_callbackLine (haction : action ∈ callbackActions) (hpackage : package ≠ [])
    (hquote : chr '"' ∉ package) (rest source : Bytes) : parsePackageChangeLogLine
        (lineHead timestamp pid ++
          (callbackMarker ++ (action ++ (startMarker ++ (package ++ (quote ++ rest)))))) source =
      some { timestamp, action, package, source } := by
  have hfind := find_callbackMarker htimestamp hpid (action ++
    (startMarker ++ (package ++ (quote ++ rest))))
  have hend := @findFrom_of_noStart (lineHead timestamp pid ++ callbackMarker) action _ startMarker
    (noStart_action haction (startMarker ++ (package ++ (quote ++ rest)))) (List.prefix_append _ _)
  have hslice := slice_append (lineHead timestamp pid ++ callbackMarker) action (startMarker ++
    (package ++ (quote ++ rest)))
  have hstart := @find_of_noStart (lineHead timestamp pid ++
    (callbackMarker ++ action)) _ startMarker
    ((noStart_lineHead htimestamp hpid (d := chr 's') (by decide) _ _).append
      ((noStart_callbackMarker haction _).append (noStart_action haction (startMarker ++
        (package ++ (quote ++ rest))))))
    (List.prefix_append _ _)
  have hstop := @findFrom_of_noStart (lineHead timestamp pid ++
    (callbackMarker ++ (action ++ startMarker))) package _ quote
    (noStart_of_notMem hquote (quote ++ rest)) (List.prefix_append _ _)
  have hvalue := slice_append (lineHead timestamp pid ++
    (callbackMarker ++ (action ++ startMarker))) package (quote ++ rest)
  simp only [List.append_assoc, List.length_append,
    Nat.add_assoc] at hfind hend hslice hstart hstop hvalue
  generalize hline : lineHead timestamp pid ++
    (callbackMarker ++ (action ++ (startMarker ++ (package ++ (quote ++ rest))))) =
    l at hfind hend hslice hstart hstop hvalue ⊢
  have hrpm : rpmCallbackAction l = some action := rpmCallbackAction_eq_some.mpr
    ⟨_, _, hfind, by simpa only [Nat.add_assoc] using hend, by simpa only [Nat.add_assoc] using hslice, haction⟩
  have hpositive := List.length_pos_of_ne_nil hpackage
  have hfirst : firstToken l = timestamp := by
    rw [← hline, firstToken, lineHead, List.append_assoc,
        List.takeWhile_append_of_pos fun b hb => by
      simpa using ne_of_mem_of_not_mem hb htimestamp]
    exact List.append_nil timestamp
  rw [parsePackageChangeLogLine, hrpm]
  refine callbackRow_eq_some.mpr ⟨_, _,
    hstart, by simpa only [Nat.add_assoc] using hstop, by omega, ?_⟩
  rw [hfirst]
  simp only [Nat.add_assoc, hvalue]

end

/-- A row of the callback branch is that of one event exactly when no package starts before the
words of the callback end, and a well-formed line of a callback gives its own row. -/
theorem callback_decoded_iff (line source : Bytes) :
    (∀ (action : Bytes) (row : PackageChangeRow), rpmCallbackAction line = some action →
      parsePackageChangeLogLine line source = some row → (OneEvent line row ↔ StartsAfter line)) ∧
    ∀ timestamp pid action package rest : Bytes, chr ' ' ∉ timestamp → chr ' ' ∉ pid →
      action ∈ callbackActions → package ≠ [] → chr '"' ∉ package →
      line = timestamp ++ ascii " [" ++ pid ++ ascii "] INFO RPM callback " ++ action ++
        ascii " start \"" ++ package ++ ascii "\"" ++ rest →
      parsePackageChangeLogLine line source = some { timestamp, action, package, source } := by
  refine ⟨fun _ _ haction hrow => oneEvent_iff haction hrow, ?_⟩
  rintro timestamp pid action package rest htimestamp hpid haction hpackage hquote rfl
  have hwords : ascii "] INFO RPM callback " = ascii "]" ++ callbackMarker := by decide
  have hrow := parse_callbackLine htimestamp hpid haction hpackage hquote rest source
  simp only [lineHead, startMarker, quote, List.append_assoc] at hrow
  simp only [hwords, List.append_assoc]
  exact hrow

def bashLine : Bytes := ascii "2026 [1] INFO RPM callback install start \"bash\""

def bashRow : PackageChangeRow :=
  { timestamp := ascii "2026", action := ascii "install", package := ascii "bash",
    source := ascii "dnf5.log" }

theorem callback_decoded_iff_bash : (OneEvent bashLine bashRow ↔ StartsAfter bashLine) ∧
    parsePackageChangeLogLine bashLine (ascii "dnf5.log") = some bashRow :=
  ⟨(callback_decoded_iff bashLine (ascii "dnf5.log")).1 (ascii "install") bashRow
    (by decide +kernel) (by decide +kernel),
    (callback_decoded_iff bashLine (ascii "dnf5.log")).2 (ascii "2026") (ascii "1")
    (ascii "install") (ascii "bash") []
      (by decide) (by decide) (by decide) (by decide) (by decide) (by decide +kernel)⟩

/-- The package of an event in the text before the callback is taken for the one that is
installed. -/
theorem package_of_other_event : ¬ ∀ (line source action : Bytes) (row : PackageChangeRow),
    rpmCallbackAction line = some action → parsePackageChangeLogLine line source = some row →
    ∃ a b, line = a ++ callbackMarker ++ row.action ++ startMarker ++ row.package ++
      quote ++ b := by
  intro h
  obtain ⟨a, b, hline⟩ := h (ascii "2026 start \"old\" INFO RPM callback install start \"new\" x")
    (ascii "dnf5.log") (ascii "install")
    { timestamp := ascii "2026", action := ascii "install", package := ascii "old",
      source := ascii "dnf5.log" }
    (by decide +kernel) (by decide +kernel)
  have hinfix : callbackMarker ++ ascii "install" ++ startMarker ++ ascii "old" <:+:
      ascii "2026 start \"old\" INFO RPM callback install start \"new\" x" :=
    ⟨a, quote ++ b, by rw [hline]; simp only [List.append_assoc]⟩
  exact absurd hinfix (by decide +kernel)

end Kasli.Tools.Package
