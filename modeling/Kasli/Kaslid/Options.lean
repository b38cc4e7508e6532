import Mathlib.Data.List.Induction
import Mathlib.Data.List.Nodup
import Kasli.Model.Config

/-! The command line of the daemon (`parse_options` of `kaslid/main.cpp`): `--once`, `--socket` and
`--audit-log`, each at most once and in any order, the last two with a path that does not look like
an option. A command line that is not accepted is blamed on the first argument that cannot go on. -/

namespace Kasli.Kaslid

open App

structure Options where
  socketPath : Bytes
  auditPath : Bytes
  once : Bool
  deriving DecidableEq

/-- `Options` as it is initialised. -/
def Options.default (getenv : EnvLookup) (runtimeDir : Option Bytes) : Options :=
  { socketPath := defaultSocketPath getenv runtimeDir, auditPath := defaultAuditLogPath getenv,
    once := false }

/-- The variables of the loop. -/
structure OptionScan where
  options : Options
  socketSeen : Bool
  auditSeen : Bool

/-- The loop, over the arguments from `argv[index]` on; an error is what is printed. -/
def scanOptions (scan : OptionScan) : List Bytes → Except Bytes Options
  | [] => .ok scan.options
  | arg :: rest =>
    if arg = ascii "--once" then
      if scan.options.once then .error (ascii "--once may only be provided once\n")
      else scanOptions { scan with options := { scan.options with once := true } } rest
    else if arg = ascii "--socket" ∨ arg = ascii "--audit-log" then
      let seen := if arg = ascii "--socket" then scan.socketSeen else scan.auditSeen
      if seen then .error (arg ++ ascii " may only be provided once\n")
      else
        match rest with
        | [] => .error (arg ++ ascii " requires a path\n")
        | path :: rest =>
          if ascii "--" <+: path then .error (arg ++ ascii " requires a path\n")
          else if arg = ascii "--socket" then
            scanOptions { scan with
              options := { scan.options with socketPath := path }, socketSeen := true } rest
          else
            scanOptions { scan with
              options := { scan.options with auditPath := path }, auditSeen := true } rest
    else .error (ascii "unknown argument: " ++ arg ++ ascii "\n")

def parseOptions (defaults : Options) (args : List Bytes) : Except Bytes Options :=
  scanOptions ⟨defaults, false, false⟩ args

/-! ### Command lines -/

inductive Flag
  | once
  | socket
  | auditLog
  deriving DecidableEq

def Flag.text : Flag → Bytes
  | .once => ascii "--once"
  | .socket => ascii "--socket"
  | .auditLog => ascii "--audit-log"

/-- A path that can be given. -/
structure OptionPath where
  path : Bytes
  not_option : ¬ ascii "--" <+: path

/-- An option as it is given. -/
inductive OptionItem
  | once
  | socket (path : OptionPath)
  | auditLog (path : OptionPath)

namespace OptionItem

def flag : OptionItem → Flag
  | once => .once
  | socket _ => .socket
  | auditLog _ => .auditLog

def args : OptionItem → List Bytes
  | once => [Flag.once.text]
  | socket path => [Flag.socket.text, path.path]
  | auditLog path => [Flag.auditLog.text, path.path]

def set (options : Options) : OptionItem → Options
  | once => { options with once := true }
  | socket path => { options with socketPath := path.path }
  | auditLog path => { options with auditPath := path.path }

end OptionItem

/-- Options without a repetition. -/
structure CommandLine where
  items : List OptionItem
  nodup : (items.map OptionItem.flag).Nodup

namespace CommandLine

def args (line : CommandLine) : List Bytes := line.items.flatMap OptionItem.args

def options (line : CommandLine) (defaults : Options) : Options :=
  line.items.foldl OptionItem.set defaults

def Has (line : CommandLine) (flag : Flag) : Prop := flag ∈ line.items.map OptionItem.flag

instance (line : CommandLine) (flag : Flag) : Decidable (line.Has flag) :=
  inferInstanceAs (Decidable (_ ∈ _))

def empty : CommandLine := ⟨[], List.nodup_nil⟩

def concat (line : CommandLine) (item : OptionItem) (h : ¬ line.Has item.flag) : CommandLine where
  items := line.items ++ [item]
  nodup := by
    rw [List.map_append, List.map_singleton, List.nodup_append]
    refine ⟨line.nodup, List.pairwise_singleton _ _, fun a ha b hb heq => h ?_⟩
    rw [Has, ← List.mem_singleton.mp hb, ← heq]
    exact ha

/-- The variables of the loop after the options of a line. -/
def scan (line : CommandLine) (defaults : Options) : OptionScan :=
  ⟨line.options defaults, line.Has .socket, line.Has .auditLog⟩

end CommandLine

/-- What is said of the argument after a line with the arguments that follow it. -/
inductive Blames (line : CommandLine) (arg : Bytes) (rest : List Bytes) : Bytes → Prop
  | twice (flag : Flag) (harg : arg = flag.text) (h : line.Has flag) :
    Blames line arg rest (arg ++ ascii " may only be provided once\n")
  | noPath (flag : Flag) (harg : arg = flag.text) (hpath : flag ≠ .once) (h : ¬ line.Has flag)
    (hrest : ∀ path ∈ rest.head?, ascii "--" <+: path) :
    Blames line arg rest (arg ++ ascii " requires a path\n")
  | unknown (harg : ∀ flag : Flag, arg ≠ flag.text) :
    Blames line arg rest (ascii "unknown argument: " ++ arg ++ ascii "\n")

/-! ### The loop -/

section

variable {defaults : Options} {line : CommandLine} {item : OptionItem}

theorem once_foldl (defaults : Options) (items : List OptionItem) :
    (items.foldl OptionItem.set defaults).once =
      (defaults.once || decide (Flag.once ∈ items.map OptionItem.flag)) := by
  induction items generalizing defaults with
  | nil => simp
  | cons item items ih =>
    rw [List.foldl_cons, ih, List.map_cons]
    cases item with
    | once => simp [OptionItem.set, OptionItem.flag]
    | socket path => simp [OptionItem.set, OptionItem.flag]
    | auditLog path => simp [OptionItem.set, OptionItem.flag]

theorem once_scan (h : defaults.once = false) :
    (line.scan defaults).options.once = decide (line.Has .once) := by
  rw [CommandLine.scan, CommandLine.options, once_foldl, h, Bool.false_or]
  rfl

theorem has_concat {flag : Flag} (h : ¬ line.Has item.flag) :
    (line.concat item h).Has flag ↔ line.Has flag ∨ flag = item.flag := by
  rw [CommandLine.Has, CommandLine.concat, List.map_append, List.map_singleton, List.mem_append,
    List.mem_singleton]
  rfl

theorem options_concat (h : ¬ line.Has item.flag) :
    (line.concat item h).options defaults = item.set (line.options defaults) :=
  List.foldl_concat ..

theorem scan_concat (h : ¬ line.Has item.flag) : (line.concat item h).scan defaults =
    ⟨item.set (line.options defaults), decide (line.Has .socket ∨ Flag.socket = item.flag),
      decide (line.Has .auditLog ∨ Flag.auditLog = item.flag)⟩ := by
  rw [CommandLine.scan, options_concat]
  simp only [has_concat]

theorem socket_ne : ascii "--socket" ≠ ascii "--once" := by decide

theorem auditLog_ne : ascii "--audit-log" ≠ ascii "--once" ∧
    ascii "--audit-log" ≠ ascii "--socket" := by decide

/-- An option that is not there yet is taken. -/
theorem scanOptions_item (hdefaults : defaults.once = false) (h : ¬ line.Has item.flag)
    (rest : List Bytes) : scanOptions (line.scan defaults) (item.args ++ rest) =
      scanOptions ((line.concat item h).scan defaults) rest := by
  rw [scan_concat]
  cases item with
  | once =>
    have hno : ¬ line.Has .once := h
    show scanOptions (line.scan defaults) (ascii "--once" :: rest) = _
    rw [scanOptions.eq_def]
    dsimp only
    rw [if_pos rfl, once_scan hdefaults, decide_eq_false hno]
    simp [CommandLine.scan, OptionItem.set, OptionItem.flag]
  | socket path =>
    have hno : ¬ line.Has .socket := h
    show scanOptions (line.scan defaults) (ascii "--socket" :: path.path :: rest) = _
    rw [scanOptions, if_neg socket_ne, if_pos (.inl rfl)]
    simp [CommandLine.scan, hno, path.not_option, OptionItem.set, OptionItem.flag]
  | auditLog path =>
    have hno : ¬ line.Has .auditLog := h
    show scanOptions (line.scan defaults) (ascii "--audit-log" :: path.path :: rest) = _
    rw [scanOptions, if_neg auditLog_ne.1, if_pos (.inr rfl)]
    simp [CommandLine.scan, hno, auditLog_ne.2, path.not_option, OptionItem.set, OptionItem.flag]

/-- An argument that is to blame ends the loop. -/
theorem scanOptions_blames (hdefaults : defaults.once = false) {arg what : Bytes}
    {rest : List Bytes} (h : Blames line arg rest what) :
    scanOptions (line.scan defaults) (arg :: rest) = .error what := by
  rw [scanOptions.eq_def]
  dsimp only
  cases h with
  | twice flag harg hhas =>
    subst harg
    cases flag with
    | once =>
      rw [Flag.text, if_pos rfl, once_scan hdefaults, decide_eq_true hhas]
      rfl
    | socket =>
      rw [Flag.text, if_neg socket_ne, if_pos (.inl rfl)]
      simp [CommandLine.scan, hhas]
    | auditLog =>
      rw [Flag.text, if_neg auditLog_ne.1, if_pos (.inr rfl)]
      simp [CommandLine.scan, hhas, auditLog_ne.2]
  | noPath flag harg hpath hno hrest =>
    subst harg
    have hshort : flag = .socket ∧ (line.scan defaults).socketSeen = false ∨
        flag = .auditLog ∧ (line.scan defaults).auditSeen = false := by
      cases flag with
      | once => exact absurd rfl hpath
      | socket => exact .inl ⟨rfl, decide_eq_false hno⟩
      | auditLog => exact .inr ⟨rfl, decide_eq_false hno⟩
    rcases hshort with ⟨rfl, hseen⟩ | ⟨rfl, hseen⟩
    · rw [Flag.text, if_neg socket_ne, if_pos (.inl rfl), if_pos rfl, hseen, if_neg Bool.false_ne_true]
      cases rest with
      | nil => rfl
      | cons path rest => exact if_pos (hrest path rfl)
    · rw [Flag.text, if_neg auditLog_ne.1, if_pos (.inr rfl), if_neg auditLog_ne.2, hseen,
        if_neg Bool.false_ne_true]
      cases rest with
      | nil => rfl
      | cons path rest => exact if_pos (hrest path rfl)
  | unknown harg =>
    have honce : arg ≠ ascii "--once" := harg .once
    have hsocket : arg ≠ ascii "--socket" := harg .socket
    have haudit : arg ≠ ascii "--audit-log" := harg .auditLog
    rw [if_neg honce, if_neg (not_or.mpr ⟨hsocket, haudit⟩)]

/-- The next argument begins an option that is not there yet, or is to blame. -/
theorem item_or_blames (line : CommandLine) (arg : Bytes) (rest : List Bytes) :
    (∃ item : OptionItem, ¬ line.Has item.flag ∧ ∃ rest', arg :: rest = item.args ++ rest') ∨
      ∃ what, Blames line arg rest what := by
  by_cases hflag : ∃ flag : Flag, arg = flag.text
  swap
  · exact .inr ⟨_, .unknown (not_exists.mp hflag)⟩
  obtain ⟨flag, rfl⟩ := hflag
  by_cases hhas : line.Has flag
  · exact .inr ⟨_, .twice flag rfl hhas⟩
  by_cases honce : flag = .once
  · subst honce
    exact .inl ⟨.once, hhas, rest, rfl⟩
  by_cases hpath : ∀ path ∈ rest.head?, ascii "--" <+: path
  · exact .inr ⟨_, .noPath flag rfl honce hhas hpath⟩
  · left
    cases rest with
    | nil => simp at hpath
    | cons path rest =>
      have hoption : ¬ ascii "--" <+: path := fun h => hpath (by simpa using h)
      cases flag with
      | once => exact absurd rfl honce
      | socket => exact ⟨.socket ⟨path, hoption⟩, hhas, rest, rfl⟩
      | auditLog => exact ⟨.auditLog ⟨path, hoption⟩, hhas, rest, rfl⟩

/-- The options of a line are read, and the loop goes on after them. -/
theorem parseOptions_append (hdefaults : defaults.once = false) (line : CommandLine)
    (rest : List Bytes) :
    parseOptions defaults (line.args ++ rest) = scanOptions (line.scan defaults) rest := by
  obtain ⟨items, hitems⟩ := line
  induction items using List.reverseRecOn generalizing rest with
  | nil => rfl
  | append_singleton items item ih =>
    have hsplit := hitems
    rw [List.map_append, List.map_singleton, List.nodup_append] at hsplit
    have hnew : ¬ CommandLine.Has ⟨items, hsplit.1⟩ item.flag := fun h =>
      hsplit.2.2 _ h _ List.mem_cons_self rfl
    have hargs : CommandLine.args ⟨items ++ [item], hitems⟩ ++ rest =
        CommandLine.args ⟨items, hsplit.1⟩ ++ (item.args ++ rest) := by
      simp [CommandLine.args]
    rw [hargs, ih _ hsplit.1, scanOptions_item hdefaults hnew]
    rfl

theorem parseOptions_args (hdefaults : defaults.once = false) (line : CommandLine) :
    parseOptions defaults line.args = .ok (line.options defaults) := by
  rw [← List.append_nil line.args, parseOptions_append hdefaults]
  rfl

theorem parseOptions_blames (hdefaults : defaults.once = false) {line : CommandLine}
    {arg what : Bytes} {rest : List Bytes} (h : Blames line arg rest what) :
    parseOptions defaults (line.args ++ arg :: rest) = .error what := by
  rw [parseOptions_append hdefaults, scanOptions_blames hdefaults h]

/-- The arguments are the options of a line, or begin so up to one that is to blame. -/
theorem line_or_blames (line : CommandLine) (args : List Bytes) :
    (∃ line' : CommandLine, line.args ++ args = line'.args) ∨
      ∃ (line' : CommandLine) (arg : Bytes) (rest : List Bytes) (what : Bytes),
        line.args ++ args = line'.args ++ arg :: rest ∧ Blames line' arg rest what := by
  induction hn : args.length using Nat.strongRecOn generalizing line args with
  | _ n ih =>
    cases args with
    | nil => exact .inl ⟨line, List.append_nil _⟩
    | cons arg rest =>
      obtain ⟨item, hnew, rest', hrest⟩ | ⟨what, hblames⟩ := item_or_blames line arg rest
      · have hargs : line.args ++ arg :: rest = (line.concat item hnew).args ++ rest' := by
          simp [hrest, CommandLine.args, CommandLine.concat]
        have hshort : rest'.length < n := by
          have hlength := congrArg List.length hrest
          rw [List.length_append] at hlength
          have hitem : 0 < item.args.length := by cases item <;> exact Nat.succ_pos _
          omega
        rw [hargs]
        exact ih _ hshort (line.concat item hnew) rest' rfl
      · exact .inr ⟨line, arg, rest, what, rfl, hblames⟩

/-- Two options with different flags set different fields. -/
theorem set_comm {item₁ item₂ : OptionItem} (h : item₁.flag ≠ item₂.flag) (options : Options) :
    item₂.set (item₁.set options) = item₁.set (item₂.set options) := by
  cases item₁ with
  | once => cases item₂ with
    | once => exact absurd rfl h
    | socket path => rfl
    | auditLog path => rfl
  | socket path₁ => cases item₂ with
    | once => rfl
    | socket path₂ => exact absurd rfl h
    | auditLog path₂ => rfl
  | auditLog path₁ => cases item₂ with
    | once => rfl
    | socket path₂ => rfl
    | auditLog path₂ => exact absurd rfl h

theorem options_perm {line₁ line₂ : CommandLine} (h : line₁.items.Perm line₂.items) :
    line₁.options defaults = line₂.options defaults := by
  refine h.foldl_eq' (fun item₁ h₁ item₂ h₂ options => ?_) defaults
  by_cases hflag : item₁.flag = item₂.flag
  · rw [List.inj_on_of_nodup_map line₁.nodup h₁ h₂ hflag]
  · exact set_comm hflag options

end

/-- The daemon starts with options exactly on a command line of options without a repetition, and
their order does not matter. Otherwise what it prints is what is to say of the first argument that
cannot go on. -/
theorem parseOptions_iff (getenv : EnvLookup) (runtimeDir : Option Bytes) (args : List Bytes) :
    (∀ options, parseOptions (Options.default getenv runtimeDir) args = .ok options ↔
      ∃ line : CommandLine, args = line.args ∧
        options = line.options (Options.default getenv runtimeDir)) ∧
    (∀ what, parseOptions (Options.default getenv runtimeDir) args = .error what ↔
      ∃ (line : CommandLine) (arg : Bytes) (rest : List Bytes),
        args = line.args ++ arg :: rest ∧ Blames line arg rest what) ∧
    ∀ line₁ line₂ : CommandLine, line₁.items.Perm line₂.items →
      parseOptions (Options.default getenv runtimeDir) line₁.args =
        parseOptions (Options.default getenv runtimeDir) line₂.args := by
  have hdefaults : (Options.default getenv runtimeDir).once = false := rfl
  generalize Options.default getenv runtimeDir = defaults at hdefaults ⊢
  have hok := parseOptions_args hdefaults
  have hcases := line_or_blames .empty args
  rw [show CommandLine.empty.args ++ args = args from rfl] at hcases
  refine ⟨fun options => ⟨fun h => ?_, ?_⟩, fun what => ⟨fun h => ?_, ?_⟩, fun line₁ line₂ h => ?_⟩
  · obtain ⟨line, rfl⟩ | ⟨line, arg, rest, what, rfl, hblames⟩ := hcases
    · exact ⟨line, rfl, (Except.ok.inj ((hok line).symm.trans h)).symm⟩
    · rw [parseOptions_blames hdefaults hblames] at h
      cases h
  · rintro ⟨line, rfl, rfl⟩
    exact hok line
  · obtain ⟨line, rfl⟩ | ⟨line, arg, rest, what', rfl, hblames⟩ := hcases
    · rw [hok line] at h
      cases h
    · rw [parseOptions_blames hdefaults hblames] at h
      cases h
      exact ⟨line, arg, rest, rfl, hblames⟩
  · rintro ⟨line, arg, rest, rfl, hblames⟩
    exact parseOptions_blames hdefaults hblames
  · rw [hok line₁, hok line₂, options_perm h]

example : parseOptions ⟨ascii "/run/s", ascii "/a", false⟩
    [ascii "--audit-log", ascii "/b", ascii "--once"] = .ok ⟨ascii "/run/s", ascii "/b", true⟩ := rfl

end Kasli.Kaslid
