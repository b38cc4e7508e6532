import Kasli.Kaslid.Options
import Kasli.Kaslid.Registry
import Kasli.Kaslid.Serve
import Kasli.Model.Providers

/-! The daemon from its command line to its exit code (`main` of `kaslid/main.cpp`). The socket is
opened last: a daemon whose audit log or model is not right never takes the place of another. -/

namespace Kasli.Kaslid

open App Core Audit Session Tools Ipc Model

/-- What the daemon is started in. Making the directories of the audit log and opening the socket
may fail. -/
structure Surroundings where
  getenv : EnvLookup
  runtimeDir : Option Bytes
  euid : ℕ
  host : Host
  parser : Parser
  curl : Option Curl
  tools : KaslidTools
  makeDirectories : Bytes → Except Bytes Unit
  listen : Bytes → Except Bytes Unit

/-- What is opened before the first connection. -/
inductive StartAction
  | auditLog (path : Bytes)
  | socket (path : Bytes)
  deriving DecidableEq

/-- What was opened, which connections were served, what the process is at, and what it printed as
errors. -/
structure Ran where
  started : List StartAction
  log : List Served
  exit : Exit
  errors : Bytes

def orThrow {α : Type} : Except Bytes α → Run StartAction Bytes α
  | .ok a => pure a
  | .error what => throw what

/-- What the loop prints of a connection. -/
def errorText (served : Served) : Bytes :=
  match served.ending with
  | .threw (.std what) => what ++ ascii "\n"
  | _ => []

section

variable (env : Surroundings)

def Surroundings.defaults : Options := .default env.getenv env.runtimeDir

/-- The part of `main` before the loop. -/
def setUp (options : Options) : Run StartAction Bytes (SessionService × ModelProvider) := do
  let registry ← orThrow (buildRegistry env.host env.tools)
  Run.emit (.auditLog options.auditPath)
  orThrow (env.makeDirectories options.auditPath)
  let audit : AuditLog := ⟨options.auditPath⟩
  let service : SessionService := { registry, policy := .ofPolicies registry.policies, audit }
  let config ← orThrow (modelConfigFromEnv env.getenv)
  let model := makeModelProvider env.curl env.parser.parse config
  Run.emit (.socket options.socketPath)
  orThrow (env.listen options.socketPath)
  return (service, model)

/-- `main` -/
def main (args : List Bytes) (conns : List ConnectionCalls) : Ran :=
  match parseOptions env.defaults args with
  | .error what => { started := [], log := [], exit := .exited 2, errors := what }
  | .ok options =>
    match (setUp env options).run [] with
    | (started, .error what) =>
      { started, log := [], exit := .exited 1, errors := what ++ ascii "\n" }
    | (started, .ok (service, model)) =>
      let (log, exit) :=
        serve env.euid (handleRequest env.parser service env.host model) options.once [] conns
      { started, log, exit, errors := log.flatMap errorText }

/-! ### Starting -/

/-- The daemon can be set up with the options, and asks this model. -/
structure Ready (options : Options) (config : ModelConfig) : Prop where
  auditLog : env.makeDirectories options.auditPath = .ok ()
  model : modelConfigFromEnv env.getenv = .ok config
  socket : env.listen options.socketPath = .ok ()

/-- What handles the requests of a daemon that is set up so. -/
def handlerOf (options : Options) (config : ModelConfig) : Bytes → Act Bytes :=
  handleRequest env.parser (env.tools.service env.host ⟨options.auditPath⟩) env.host
    (makeModelProvider env.curl env.parser.parse config)

end

section

variable {env : Surroundings} {options : Options} {config : ModelConfig}

theorem setUp_of_ready (h : Ready env options config) : (setUp env options).run [] =
    ([.auditLog options.auditPath, .socket options.socketPath],
      .ok (env.tools.service env.host ⟨options.auditPath⟩,
        makeModelProvider env.curl env.parser.parse config)) := by
  simp only [setUp, buildRegistry_eq, h.auditLog, h.model, h.socket, orThrow, Run.pure_bind,
    Run.run_emit_bind, Run.run_pure]
  rfl

/-- A daemon that cannot be set up is given up before the socket, or at it. -/
theorem setUp_of_not_ready (h : ∀ config, ¬ Ready env options config) :
    ∃ started what, (setUp env options).run [] = (started, .error what) ∧
      started <+: [.auditLog options.auditPath, .socket options.socketPath] ∧
      (.socket options.socketPath ∈ started ↔ env.makeDirectories options.auditPath = .ok () ∧
        ∃ config, modelConfigFromEnv env.getenv = .ok config) := by
  cases haudit : env.makeDirectories options.auditPath with
  | error what =>
    refine ⟨[.auditLog options.auditPath], what, ?_, ⟨[_], rfl⟩, by simp⟩
    simp only [setUp, buildRegistry_eq, haudit, orThrow, Run.pure_bind, Run.run_emit_bind,
      Run.throw_bind, Run.run_throw]
  | ok _ =>
    cases hmodel : modelConfigFromEnv env.getenv with
    | error what =>
      refine ⟨[.auditLog options.auditPath], what, ?_, ⟨[_], rfl⟩, by simp⟩
      simp only [setUp, buildRegistry_eq, haudit, hmodel, orThrow, Run.pure_bind,
        Run.run_emit_bind, Run.throw_bind, Run.run_throw]
    | ok config =>
      cases hsocket : env.listen options.socketPath with
      | ok _ => exact absurd ⟨haudit, hmodel, hsocket⟩ (h config)
      | error what =>
        refine ⟨_, what, ?_, List.prefix_rfl, by simp⟩
        simp only [setUp, buildRegistry_eq, haudit, hmodel, hsocket, orThrow, Run.pure_bind,
          Run.run_emit_bind, Run.throw_bind, Run.run_throw]

end

/-! ### The exit code -/

/-- With `--once` the first connection is the only one; it ends so. -/
def OnlyEnds (env : Surroundings) (options : Options) (config : ModelConfig)
    (conns : List ConnectionCalls) (ending : Ending) : Prop :=
  options.once = true ∧ ∃ calls rest, conns = calls :: rest ∧
    (acceptOne env.euid (handlerOf env options config) calls []).ending = ending

section

variable {euid : ℕ} {handler : Bytes → Act Bytes}
  (hraises : ∀ line, Run.Raises IsStd (handler line))

include hraises

/-- Nothing but a `std::exception` comes out of a connection. -/
theorem ending_acceptOne (calls : ConnectionCalls) (σ : History) :
    (acceptOne euid handler calls σ).ending ≠ .threw .other := by
  rw [acceptOne]
  split
  · intro heq
    cases heq
  · intro heq
    cases heq
  next line _ =>
    split
    next s error hrun =>
      obtain ⟨what, rfl⟩ := hraises line σ error (by rw [hrun])
      intro heq
      cases heq
    next s response hrun =>
      cases houtcome : (writeLine calls.sends response).2 with
      | returned _ => simp [Ending.ofOutcome, houtcome]
      | threw what => simp [Ending.ofOutcome, houtcome]
      | waiting => simp [Ending.ofOutcome, houtcome]

/-- Without `--once` the loop does not end. -/
theorem serve_forever (conns : List ConnectionCalls) (σ : History) :
    (serve euid handler false σ conns).2 = .serving := by
  induction conns generalizing σ with
  | nil => rfl
  | cons calls rest ih =>
    have hother := @ending_acceptOne euid handler hraises calls σ
    rw [serve]
    cases hending : (acceptOne euid handler calls σ).ending with
    | returned => simp [ih]
    | waiting => rfl
    | threw error =>
      cases error with
      | std what => simp [ih]
      | other => exact absurd hending hother

end

theorem raises_handlerOf (env : Surroundings) (options : Options) (config : ModelConfig)
    (line : Bytes) : Run.Raises IsStd (handlerOf env options config line) :=
  raises_handleRequest env.parser _ env.host _ line

/-- What the loop comes to. -/
theorem serve_exit (env : Surroundings) (options : Options) (config : ModelConfig)
    (conns : List ConnectionCalls) :
    let exit := (serve env.euid (handlerOf env options config) options.once [] conns).2
    (exit = .exited 0 ↔ OnlyEnds env options config conns .returned) ∧
      (exit = .exited 1 ↔ ∃ what, OnlyEnds env options config conns (.threw (.std what))) ∧
      (exit = .serving ↔ ∀ ending, OnlyEnds env options config conns ending → ending = .waiting) ∧
      exit ≠ .exited 2 ∧ exit ≠ .terminated := by
  have hraises := raises_handlerOf env options config
  unfold OnlyEnds
  cases options.once with
  | false => simp [serve_forever hraises]
  | true =>
    cases conns with
    | nil => simp [serve]
    | cons calls rest =>
      have hother := @ending_acceptOne env.euid _ hraises calls []
      simp only [serve]
      cases hending : (acceptOne env.euid (handlerOf env options config) calls []).ending with
      | returned => simp [hending]
      | waiting => simp [hending]
      | threw error =>
        cases error with
        | std what => simp [hending]
        | other => exact absurd hending hother

section

variable {env : Surroundings} {args : List Bytes}

theorem parseOptions_of_not_line (h : ∀ line : CommandLine, args ≠ line.args) :
    ∃ what, parseOptions env.defaults args = .error what := by
  obtain ⟨line, hargs⟩ | ⟨line, arg, rest, what, hargs, hblames⟩ := line_or_blames .empty args
  · exact absurd hargs (h line)
  · refine ⟨what, ?_⟩
    rw [show args = line.args ++ arg :: rest from hargs]
    exact parseOptions_blames rfl hblames

theorem main_of_not_line (h : ∀ line : CommandLine, args ≠ line.args)
    (conns : List ConnectionCalls) : ∃ what, main env args conns = ⟨[], [], .exited 2, what⟩ := by
  obtain ⟨what, hwhat⟩ := @parseOptions_of_not_line env args h
  refine ⟨what, ?_⟩
  rw [main, hwhat]

variable {line : CommandLine} {config : ModelConfig}

theorem main_of_ready (h : Ready env (line.options env.defaults) config)
    (conns : List ConnectionCalls) :
    let options := line.options env.defaults
    let served := serve env.euid (handlerOf env options config) options.once [] conns
    main env line.args conns =
      ⟨[.auditLog options.auditPath, .socket options.socketPath], served.1, served.2,
        served.1.flatMap errorText⟩ := by
  rw [main, parseOptions_args rfl]
  dsimp only
  rw [setUp_of_ready h]
  rfl

theorem main_of_not_ready (h : ∀ config, ¬ Ready env (line.options env.defaults) config)
    (conns : List ConnectionCalls) :
    ∃ started what, main env line.args conns = ⟨started, [], .exited 1, what⟩ ∧
      started <+: [.auditLog (line.options env.defaults).auditPath,
        .socket (line.options env.defaults).socketPath] ∧
      (.socket (line.options env.defaults).socketPath ∈ started ↔
        env.makeDirectories (line.options env.defaults).auditPath = .ok () ∧
          ∃ config, modelConfigFromEnv env.getenv = .ok config) := by
  obtain ⟨started, what, hsetUp, hstarted⟩ := setUp_of_not_ready h
  refine ⟨started, what ++ ascii "\n", ?_, hstarted⟩
  rw [main, parseOptions_args rfl]
  dsimp only
  rw [hsetUp]

end

/-- There is one model to ask. -/
theorem Ready.unique {env : Surroundings} {options : Options} {config config' : ModelConfig}
    (h : Ready env options config) (h' : Ready env options config') : config' = config :=
  Except.ok.inj (h'.model.symm.trans h.model)

theorem exists_ready_iff {env : Surroundings} {options : Options} {config : ModelConfig}
    (h : Ready env options config) {p : ModelConfig → Prop} :
    (∃ config, Ready env options config ∧ p config) ↔ p config := by
  constructor
  · rintro ⟨config', hready, hp⟩
    rwa [h.unique hready] at hp
  · exact fun hp => ⟨config, h, hp⟩

/-- What the exit code of the daemon says. It is two exactly when the arguments are no options, and
then nothing was opened. With options, the socket is opened only after the audit log and the model
are right. Then the daemon serves, and it ends only with the one connection of `--once`: with zero
when that was served to its end, and with one when it was not. With one it ends also when it cannot
be set up. No exception ends it; that a redaction returns, as a function of its text, is taken for
granted. -/
theorem exit_codes (env : Surroundings) (conns : List ConnectionCalls) :
    (∀ args, (main env args conns).exit = .exited 2 ↔ ∀ line : CommandLine, args ≠ line.args) ∧
    (∀ args, (main env args conns).exit = .exited 2 →
      (main env args conns).started = [] ∧ (main env args conns).log = []) ∧
    (∀ args, (main env args conns).exit ≠ .terminated) ∧
    ∀ line : CommandLine,
      let options := line.options env.defaults
      let ran := main env line.args conns
      (ran.started <+: [.auditLog options.auditPath, .socket options.socketPath] ∧
        (.socket options.socketPath ∈ ran.started ↔
          env.makeDirectories options.auditPath = .ok () ∧
            ∃ config, modelConfigFromEnv env.getenv = .ok config)) ∧
      (ran.exit = .exited 0 ↔ ∃ config, Ready env options config ∧
        OnlyEnds env options config conns .returned) ∧
      (ran.exit = .exited 1 ↔ (∀ config, ¬ Ready env options config) ∨
        ∃ config, Ready env options config ∧
          ∃ what, OnlyEnds env options config conns (.threw (.std what))) ∧
      (ran.exit = .serving ↔ ∃ config, Ready env options config ∧
        ∀ ending, OnlyEnds env options config conns ending → ending = .waiting) := by
  have hline (line : CommandLine) : (main env line.args conns).exit ≠ .exited 2 ∧
      (main env line.args conns).exit ≠ .terminated := by
    by_cases hready : ∃ config, Ready env (line.options env.defaults) config
    · obtain ⟨config, hready⟩ := hready
      rw [main_of_ready hready]
      exact (serve_exit env _ config conns).2.2.2
    · obtain ⟨started, what, hmain, -⟩ := main_of_not_ready (not_exists.mp hready) conns
      rw [hmain]
      exact ⟨by simp, by simp⟩
  refine ⟨fun args => ⟨?_, fun h => ?_⟩, fun args h => ?_, fun args => ?_, fun line => ?_⟩
  · rintro h line rfl
    exact (hline line).1 h
  · obtain ⟨what, hmain⟩ := @main_of_not_line env args h conns
    rw [hmain]
  · by_cases hargs : ∃ line : CommandLine, args = line.args
    · obtain ⟨line, rfl⟩ := hargs
      exact absurd h (hline line).1
    · obtain ⟨what, hmain⟩ := @main_of_not_line env args (not_exists.mp hargs) conns
      rw [hmain]
      exact ⟨rfl, rfl⟩
  · by_cases hargs : ∃ line : CommandLine, args = line.args
    · obtain ⟨line, rfl⟩ := hargs
      exact (hline line).2
    · obtain ⟨what, hmain⟩ := @main_of_not_line env args (not_exists.mp hargs) conns
      rw [hmain]
      simp
  · intro options ran
    by_cases hready : ∃ config, Ready env options config
    · obtain ⟨config, hready⟩ := hready
      have hran : ran = _ := main_of_ready hready conns
      obtain ⟨hzero, hone, hserving, -⟩ := serve_exit env options config conns
      simp only [hran, exists_ready_iff hready]
      refine ⟨⟨List.prefix_rfl, iff_of_true (List.mem_cons_of_mem _ List.mem_cons_self)
        ⟨hready.auditLog, config, hready.model⟩⟩, hzero, ?_, hserving⟩
      rw [or_iff_right fun hnot => hnot config hready]
      exact hone
    · obtain ⟨started, what, hran, hstarted⟩ := main_of_not_ready (not_exists.mp hready) conns
      have hnone {p : ModelConfig → Prop} : ¬ ∃ config, Ready env options config ∧ p config :=
        fun ⟨config, h, _⟩ => hready ⟨config, h⟩
      rw [show ran = _ from hran]
      exact ⟨hstarted, iff_of_false (by simp) hnone,
        iff_of_true rfl (.inl (not_exists.mp hready)), iff_of_false (by simp) hnone⟩

end Kasli.Kaslid
