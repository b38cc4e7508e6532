import Kasli.App.Attempts
import Kasli.Cli.Main

/-! Runs of the client against one daemon (`kasli-cli/main.cpp`, `kaslid/main.cpp`). Each has
options and sockets of its own, and may start the service and try again; the daemon serves their
connections in turn. What the daemon does is what the commands of those that it heard do, one after
another, and an answer that a client prints is that of its own command in its turn. -/

namespace Kasli.Cli

open Core Session Ipc App Kaslid

/-- A run of the client that has something to send: its options with the command that they say,
the system calls of its attempts, and the daemon's end of its connection. -/
structure Caller where
  deps : DaemonAutostartDeps
  help : Bytes
  options : CliOptions
  params : OrderedMap Bytes Bytes
  id : Bytes
  command : Command
  json : Json
  calls : List App.Action → ClientCalls
  conn : ConnectionCalls
  read : parseToolParams options.toolParams = .ok params
  said : commandOf options params = some (id, command)
  selected : selectRequest help options params = .ok json
  encodable : json.Encodable
  sockets : OverSockets deps options.socketPath json.render calls

namespace Caller

/-- The line of the request. -/
def line (c : Caller) : Bytes := c.json.render

/-- What the client does for its request, with what that comes to. -/
def requested (c : Caller) : List App.Action × Except RequestError Bytes :=
  (requestWithOptionalUserServiceStart c.deps c.options.socketPath c.line
    (allowAutostart c.options)).run []

/-- All that the client writes, in all its attempts. -/
def written (c : Caller) : Bytes :=
  App.sent c.options.socketPath c.line c.calls [] c.requested.1

/-- The daemon has a line of the connection. -/
def heard (euid : ℕ) (c : Caller) : Bool := (request? euid c.conn).isSome

/-- The command, as the daemon carries it out. -/
def performed (service : SessionService) (host : Host) (model : ModelProvider) (c : Caller) :
    Act Bytes :=
  tryCatch (perform service host model c.id c.command) (protocolError service.audit host c.id)

/-- The daemon gets a first part of what the client writes, and the client's last attempt a first
part of what the daemon writes. -/
structure Linked (c : Caller) (served : Served) : Prop where
  request : arrived c.conn.reads <+: c.written
  reply : ∀ before outcome, c.requested.1 = before ++ [.attempt outcome] →
    arrived (c.calls before).reads <+: served.written

variable {c : Caller} {served : Served}

/-! ### The client's end -/

theorem run_main : (main c.deps c.help c.options).run [] =
    (c.requested.1, .ok (exitOf c.deps c.requested.2)) :=
  Cli.run_main c.read c.selected c.encodable

theorem requested_requested :
    Requested c.deps c.options.socketPath c.line [] c.requested.1 :=
  keeps_request [] requested_self

theorem answersLast {answer : Bytes} (h : c.requested.2 = .ok answer) :
    AnswersLast c.requested.1 answer := by
  have hrun : c.requested = (c.requested.1, .ok answer) := Prod.ext rfl h
  exact answersLast_request hrun

theorem sentLast :
    SentLast c.options.socketPath c.line c.calls [] c.requested.1 c.requested.2 :=
  sentLast_request c.sockets

/-- An answer was read from a line that the daemon wrote. -/
theorem answer_written (h : c.Linked served) {answer : Bytes}
    (hanswer : c.requested.2 = .ok answer) :
    answer ++ [chr '\n'] <+: served.written := by
  obtain ⟨before, hlast⟩ := answersLast hanswer
  have hmade := requested_requested before _ [] hlast
  have hread := readLine_of_answer ((c.sockets before).trans (congrArg some hmade.symm))
  exact (isPrefix_of_readLine hread).1.trans (h.reply before _ hlast)

/-- The bytes of the connection are those of the request's line. -/
theorem arrived_isPrefix (h : c.Linked served) :
    ∃ script, arrived c.conn.reads <+: (writeLine script c.line).1 := by
  rcases c.sentLast with hnone | ⟨before, -, hlast⟩
  · refine ⟨[], ?_⟩
    have hwritten := h.request
    rw [written, hnone] at hwritten
    rw [List.prefix_nil.mp hwritten]
    exact List.nil_prefix
  · refine ⟨(c.calls before).sends, h.request.trans ?_⟩
    rw [written, hlast]
    exact written_isPrefix

theorem request?_of_heard (h : c.Linked served) {euid : ℕ} (hheard : c.heard euid = true) :
    request? euid c.conn = some c.line := by
  obtain ⟨line, hline⟩ := Option.isSome_iff_exists.mp hheard
  obtain ⟨script, hscript⟩ := arrived_isPrefix h
  rw [hline, eq_of_request? hscript hline]

end Caller

/-! ### The daemon's end -/

section

variable {parser : Parser} (service : SessionService) (host : Host) (model : ModelProvider)

/-- The line makes the daemon carry out the command. -/
theorem Caller.handleRequest_line (hparse : Json.Undoes parser.parse) (c : Caller) :
    handleRequest parser service host model c.line = c.performed service host model := by
  rcases selectRequest_cases c.help c.options c.params with ⟨hnone, -⟩ |
    ⟨id, command, json, hcommand, hselect, hw, hid, hd⟩
  · rw [c.said] at hnone
    cases hnone
  · obtain ⟨rfl, rfl⟩ := Prod.mk.inj (Option.some.inj (hcommand.symm.trans c.said))
    obtain rfl := Except.ok.inj (hselect.symm.trans c.selected)
    rw [Caller.line, handleRequest_render service host model hparse hw c.encodable hd, hid]
    rfl

variable (euid : ℕ) (callers : List Caller)

/-- What the commands of the first callers do, of those that the daemon heard. -/
def turn (i : ℕ) : History :=
  Run.history (Caller.performed service host model) [] ((callers.take i).filter (Caller.heard euid))

variable (parser) (once : Bool)

/-- What the daemon does with the connections of the callers. -/
def callersServed : List Served :=
  (serve euid (handleRequest parser service host model) once [] (callers.map Caller.conn)).1

/-- Each caller is linked to what the daemon does with its connection, if it comes to that. -/
def AllLinked : Prop := ∀ (i : ℕ) (c : Caller), callers[i]? = some c →
  c.Linked ((callersServed parser service host model euid callers once)[i]?.getD ⟨[], [], .waiting⟩)

variable {parser service host model euid callers once}

theorem filterMap_request? {callers : List Caller} (h : ∀ c ∈ callers, ∃ served, c.Linked served) :
    (callers.map Caller.conn).filterMap (request? euid) =
      (callers.filter (Caller.heard euid)).map Caller.line := by
  induction callers with
  | nil => rfl
  | cons c callers ih =>
    rw [List.forall_mem_cons] at h
    obtain ⟨⟨served, hlinked⟩, hrest⟩ := h
    rw [List.map_cons]
    cases hheard : c.heard euid with
    | true =>
      rw [List.filterMap_cons_some (c.request?_of_heard hlinked hheard),
        List.filter_cons_of_pos hheard, List.map_cons, ih hrest]
    | false =>
      have hnone : request? euid c.conn = none :=
        Option.isNone_iff_eq_none.mp (Option.isSome_eq_false_iff.mp hheard)
      rw [List.filterMap_cons_none hnone, List.filter_cons_of_neg (by simp [hheard]), ih hrest]

/-- The history of the daemon's requests is that of the commands. -/
theorem history_eq_turn (hparse : Json.Undoes parser.parse)
    (h : AllLinked parser service host model euid callers once) (i : ℕ) :
    Run.history (handleRequest parser service host model) []
      (((callers.map Caller.conn).take i).filterMap (request? euid)) =
        turn service host model euid callers i := by
  have hlinked : ∀ c ∈ callers.take i, ∃ served, c.Linked served := fun c hc => by
    obtain ⟨j, hj⟩ := List.mem_iff_getElem?.mp (List.mem_of_mem_take hc)
    exact ⟨_, h j c hj⟩
  rw [← List.map_take, filterMap_request? hlinked, Run.history_map, turn]
  simp only [Caller.handleRequest_line service host model hparse]

/-- What the daemon did with a caller's connection, it did in the caller's turn. -/
theorem served_eq (hparse : Json.Undoes parser.parse)
    (h : AllLinked parser service host model euid callers once) {i : ℕ} {c : Caller}
    {served : Served} (hc : callers[i]? = some c)
    (hserved : (callersServed parser service host model euid callers once)[i]? = some served) :
    served = acceptOne euid (handleRequest parser service host model) c.conn
      (turn service host model euid callers i) := by
  obtain ⟨conn, hconn, hacc⟩ := serve_log once hserved
  rw [List.getElem?_map, hc] at hconn
  rw [hacc, history_eq_turn hparse h, ← Option.some.inj hconn]

theorem pastConnecting_clientOutcome (x : Except Exn Bytes) :
    pastConnecting (clientOutcome x) = true := by
  cases x with
  | error error => rfl
  | ok reply =>
    rw [clientOutcome]
    split_ifs
    · rfl
    · rfl

/-- A caller whose connection works is heard, and what its attempt comes to is the reply to its
command. -/
theorem requested_of_working (hparse : Json.Undoes parser.parse) {c : Caller} {σ : History}
    {before : List App.Action} {outcome : Except RequestError Bytes}
    (hlast : c.requested.1 = before ++ [.attempt outcome])
    (h : Working euid (c.calls before) c.conn c.options.socketPath c.line
      (acceptOne euid (handleRequest parser service host model) c.conn σ))
    (hlen : c.line.length ≤ maxUnixSocketLineBytes) :
    c.heard euid = true ∧
      c.requested.2 = clientOutcome ((c.performed service host model).run σ).2 := by
  have hnot : chr '\n' ∉ c.line := Json.newline_notMem_render _
  have hover := requestOverUnixSocket_of_connected h.connected h.sends h.room hnot hlen
  have harrived := h.request
  rw [hover] at harrived
  have hline := request?_of_arrived h.accepted h.prepared h.peer hnot hlen harrived
  have hcome := outcome_of_working h hnot hlen
  rw [c.handleRequest_line service host model hparse] at hcome
  have hmade := Caller.requested_requested before outcome [] hlast
  obtain rfl : outcome = clientOutcome ((c.performed service host model).run σ).2 :=
    hmade.trans (Option.some.inj ((c.sockets before).symm.trans hcome))
  refine ⟨Option.isSome_iff_exists.mpr ⟨_, hline⟩, ?_⟩
  exact ((delivers c.deps c.options.socketPath c.line (allowAutostart c.options) []).endsWithPast
    before _ [] hlast (pastConnecting_clientOutcome _)).2

/-- Whatever fails, what the daemon does is what the commands do of those callers that it heard,
one after another, however often a caller tried. A caller exits with 1, or has printed what its own
command replied in its turn, done then and once. A caller whose line fits and whose connection
works, at the first attempt or after the service was started, is heard, and exits with that reply
or, when there is none that fits a line, with an error. -/
theorem callers_in_turn (hparse : Json.Undoes parser.parse)
    (h : AllLinked parser service host model euid callers once) :
    let log := callersServed parser service host model euid callers once
    log.flatMap Served.done = turn service host model euid callers log.length ∧
    ∀ (i : ℕ) (c : Caller), callers[i]? = some c →
      let result := (c.performed service host model).run (turn service host model euid callers i)
      let exit := ((main c.deps c.help c.options).run []).2
      ((∃ err, exit = .ok (.exited 1 [] err)) ∨
        ∃ served reply, log[i]? = some served ∧ c.heard euid = true ∧
          result = (served.done, .ok reply) ∧ exit = .ok (.exited 0 (reply ++ ascii "\n") [])) ∧
      ∀ served before outcome, log[i]? = some served →
        c.requested.1 = before ++ [.attempt outcome] →
        Working euid (c.calls before) c.conn c.options.socketPath c.line served →
        c.line.length ≤ maxUnixSocketLineBytes →
        c.heard euid = true ∧ served.done = result.1 ∧
          exit = .ok (exitOf c.deps (clientOutcome result.2)) := by
  intro log
  constructor
  · obtain ⟨-, hdone⟩ := @serve_history euid (handleRequest parser service host model) [] once
      (callers.map Caller.conn)
    rw [List.nil_append, history_eq_turn hparse h] at hdone
    exact hdone
  · intro i c hc result exit
    have hexit : exit = .ok (exitOf c.deps c.requested.2) := by
      simp only [exit, c.run_main]
    constructor
    · cases hrequested : c.requested.2 with
      | error error => exact .inl ⟨_, by rw [hexit, hrequested, exitOf]⟩
      | ok answer =>
        right
        have hlinked := h i c hc
        have hwritten := Caller.answer_written hlinked hrequested
        cases hserved : log[i]? with
        | none =>
          rw [hserved] at hwritten
          simp at hwritten
        | some served =>
          rw [hserved] at hwritten hlinked
          obtain rfl := served_eq hparse h hc hserved
          obtain ⟨line, hline, hrun⟩ := handled_of_written hwritten
          have hheard : c.heard euid = true := Option.isSome_iff_exists.mpr ⟨line, hline⟩
          obtain rfl := Option.some.inj (hline.symm.trans (Caller.request?_of_heard hlinked hheard))
          rw [c.handleRequest_line service host model hparse] at hrun
          exact ⟨_, answer, rfl, hheard, hrun, by rw [hexit, hrequested, exitOf]⟩
    · intro served before outcome hserved hlast hworking hlen
      obtain rfl := served_eq hparse h hc hserved
      obtain ⟨hheard, hrequested⟩ := requested_of_working hparse hlast hworking hlen
      have hline := Caller.request?_of_heard (h i c hc) hheard
      refine ⟨hheard, ?_, by rw [hexit, hrequested]⟩
      rw [done_acceptOne hline, c.handleRequest_line service host model hparse]

end

/-! ### A caller that starts the service -/

def upConnection : ConnectionCalls := plainConnection 1000 (upLine ++ [chr '\n'])

/-- What the daemon does with the caller's connection. -/
def lateServed : Served :=
  acceptOne 1000 (handleRequest jsonParser upService stillHost (constantModel [])) upConnection []

/-- At first there is no socket. -/
def lateCalls (τ : List App.Action) : ClientCalls :=
  if τ = [] then { plainClient lateServed.written with connect := some noEntry }
  else plainClient lateServed.written

def lateDeps (outcome : Except RequestError Bytes) : DaemonAutostartDeps where
  request _ _ τ := if τ = [] then .error (.connect noEntry) else outcome
  startUserService _ := 0
  socketExists _ _ := true
  strerror _ := []

theorem run_lateDeps {outcome : Except RequestError Bytes} (h : pastConnecting outcome = true)
    (socketPath request : Bytes) :
    (requestWithOptionalUserServiceStart (lateDeps outcome) socketPath request true).run [] =
      ([.attempt (.error (.connect noEntry)), .start 0, .look true, .attempt outcome],
        outcome) := by
  have hattempt := @run_attempt (lateDeps outcome) socketPath request []
  rw [requestWithOptionalUserServiceStart, Run.run_tryCatch_of_error hattempt, requestAfterStart,
    waitFrom]
  cases outcome with
  | ok answer => rfl
  | error error =>
    cases error with
    | connect errorNumber => cases h
    | other what => rfl

def upOutcome : Except RequestError Bytes :=
  clientOutcome ((handleRequest jsonParser upService stillHost (constantModel []) upLine).run []).2

theorem newline_notMem_upLine : chr '\n' ∉ upLine := Json.newline_notMem_render _

theorem working_late : Working 1000 (plainClient lateServed.written) upConnection
    upOptions.socketPath upLine (acceptOne 1000 (handleRequest jsonParser upService stillHost
      (constantModel [])) upConnection []) :=
  working_plain (by decide) newline_notMem_upLine upLine_length

theorem overSockets_late :
    OverSockets (lateDeps upOutcome) upOptions.socketPath upLine lateCalls := by
  intro τ
  by_cases hτ : τ = []
  · subst hτ
    rfl
  · have hrequest : (lateDeps upOutcome).request upOptions.socketPath upLine τ = upOutcome :=
      if_neg hτ
    rw [lateCalls, if_neg hτ, hrequest]
    exact outcome_of_working working_late newline_notMem_upLine upLine_length

def lateCaller : Caller where
  deps := lateDeps upOutcome
  help := []
  options := upOptions
  params := .empty
  id := ascii "cli-2"
  command := .call upRequest
  json := makeToolCallRequest (ascii "cli-2") upRequest
  calls := lateCalls
  conn := upConnection
  read := rfl
  said := rfl
  selected := rfl
  encodable := encodable_toolCallRequest (by decide) upRequest_valid
  sockets := overSockets_late

theorem requested_lateCaller : lateCaller.requested =
    ([.attempt (.error (.connect noEntry)), .start 0, .look true, .attempt upOutcome], upOutcome) :=
  run_lateDeps (pastConnecting_clientOutcome _) _ _

theorem callersServed_late : callersServed jsonParser upService stillHost (constantModel []) 1000
    [lateCaller] false = [lateServed] := by
  rcases @serve_cons 1000 upHandler upConnection [] false [] with h | h
  · exact h
  · exact h

/-- The first attempt writes nothing. -/
theorem written_lateCaller : lateCaller.written = upLine ++ [chr '\n'] := by
  have hfirst : (requestOverUnixSocket (lateCalls []) upOptions.socketPath upLine).1 = [] := rfl
  have hlast : (requestOverUnixSocket (lateCalls [.attempt (.error (.connect noEntry)), .start 0,
      .look true]) upOptions.socketPath upLine).1 = upLine ++ [chr '\n'] := by
    rw [lateCalls, if_neg (by simp), requestOverUnixSocket_of_connected working_late.connected
      working_late.sends working_late.room newline_notMem_upLine upLine_length]
  have hline : lateCaller.line = upLine := rfl
  have hcalls : lateCaller.calls = lateCalls := rfl
  have hpath : lateCaller.options.socketPath = upOptions.socketPath := rfl
  rw [Caller.written, requested_lateCaller, hline, hcalls, hpath]
  simp only [sent, Action.isAttempt, List.nil_append, List.cons_append, List.append_nil, if_true,
    Bool.false_eq_true, if_false, hfirst, hlast]

theorem reads_lateCalls (τ : List App.Action) :
    arrived (lateCalls τ).reads = lateServed.written := by
  have hreads : (lateCalls τ).reads = [.bytes lateServed.written, .bytes []] := by
    rw [lateCalls]
    split_ifs
    · rfl
    · rfl
  rw [hreads]
  exact arrived_bytes _

theorem allLinked_late :
    AllLinked jsonParser upService stillHost (constantModel []) 1000 [lateCaller] false := by
  intro i c hc
  cases i with
  | succ i => cases hc
  | zero =>
    obtain rfl := Option.some.inj hc
    rw [callersServed_late, List.getElem?_cons_zero, Option.getD_some]
    constructor
    · have harrived : arrived lateCaller.conn.reads = upLine ++ [chr '\n'] := arrived_bytes _
      exact ⟨[], by rw [List.append_nil, harrived, written_lateCaller]⟩
    · intro before outcome _
      have harrived : arrived (lateCaller.calls before).reads = lateServed.written :=
        reads_lateCalls before
      exact ⟨[], by rw [List.append_nil, harrived]⟩

/-- The service is started, the second attempt is heard, and its reply is printed. -/
theorem callers_in_turn_late : lateCaller.heard 1000 = true ∧
    lateServed.done = ((lateCaller.performed upService stillHost (constantModel [])).run []).1 ∧
    ((main lateCaller.deps lateCaller.help lateCaller.options).run []).2 =
      .ok (exitOf lateCaller.deps (clientOutcome
        ((lateCaller.performed upService stillHost (constantModel [])).run []).2)) := by
  have hcallers := callers_in_turn Json.undoes_parse allLinked_late
  rw [callersServed_late] at hcallers
  have hrequested : lateCaller.requested.1 = [.attempt (.error (.connect noEntry)), .start 0,
      .look true] ++ [.attempt upOutcome] := by
    rw [requested_lateCaller]
    rfl
  have hcalls : lateCaller.calls [.attempt (.error (.connect noEntry)), .start 0, .look true] =
      plainClient lateServed.written := by
    have hcalls : lateCaller.calls = lateCalls := rfl
    rw [hcalls, lateCalls, if_neg (by simp)]
  refine (hcallers.2 0 lateCaller rfl).2 lateServed _ _ rfl hrequested ?_ upLine_length
  rw [hcalls]
  exact working_late

end Kasli.Cli
