import Kasli.Effect.Raises
import Kasli.Ipc.Accept
import Kasli.Kaslid.Agreement
import Kasli.Kaslid.Disclosure

/-! The loop of the daemon (`main` of `kaslid/main.cpp`, `UnixSocketServer::accept_one`). One
connection is served after another; what goes wrong with one of them is reported and the loop goes
on. The history of the daemon is that of its handler over the lines it was handed, so what is shown
of these runs holds of the daemon behind its socket. -/

namespace Kasli.Kaslid

open Core Audit Session Ipc

/-! ### One connection -/

/-- How serving a connection ends. -/
inductive Ending
  | returned
  | threw (error : Exn)
  | waiting
  deriving DecidableEq

/-- What serving a connection adds to the history, what is written to the client, and how it
ends. -/
structure Served where
  done : History
  written : Bytes
  ending : Ending

def Ending.ofOutcome : Outcome Unit → Ending
  | .returned () => .returned
  | .threw what => .threw (.std what)
  | .waiting => .waiting

theorem Ending.ofOutcome_eq_returned {outcome : Outcome Unit} :
    Ending.ofOutcome outcome = .returned ↔ outcome = .returned () := by
  cases outcome with
  | returned value => simp [ofOutcome]
  | threw what => simp [ofOutcome]
  | waiting => simp [ofOutcome]

section

variable (euid : ℕ) (handler : Bytes → Act Bytes)

/-- `UnixSocketServer::accept_one` -/
def acceptOne (calls : ConnectionCalls) (σ : History) : Served :=
  match acceptRequest euid calls with
  | .waiting => ⟨[], [], .waiting⟩
  | .threw what => ⟨[], [], .threw (.std what)⟩
  | .returned request =>
    match (handler request).run σ with
    | (s, .error error) => ⟨s, [], .threw error⟩
    | (s, .ok response) =>
      let (written, outcome) := writeLine calls.sends response
      ⟨s, written, .ofOutcome outcome⟩

/-! ### The loop -/

/-- What the process is at: serving the last connection or waiting for the next, exited with a
code, or ended by an exception that nothing catches. -/
inductive Exit
  | serving
  | exited (code : ℕ)
  | terminated
  deriving DecidableEq

/-- The loop of `main`. -/
def serve (once : Bool) (σ : History) : List ConnectionCalls → List Served × Exit
  | [] => ([], .serving)
  | calls :: rest =>
    let served := acceptOne euid handler calls σ
    match served.ending with
    | .waiting => ([served], .serving)
    | .threw .other => ([served], .terminated)
    | .threw (.std _) =>
      if once then ([served], .exited 1)
      else
        let (log, exit) := serve once (σ ++ served.done) rest
        (served :: log, exit)
    | .returned =>
      if once then ([served], .exited 0)
      else
        let (log, exit) := serve once (σ ++ served.done) rest
        (served :: log, exit)

end

/-! ### What a connection comes to -/

section

variable {euid : ℕ} {handler : Bytes → Act Bytes} {calls : ConnectionCalls} {σ : History}

/-- A connection without a request does nothing and is sent nothing. -/
theorem acceptOne_of_none (h : request? euid calls = none) :
    (acceptOne euid handler calls σ).done = [] ∧ (acceptOne euid handler calls σ).written = [] ∧
      (acceptOne euid handler calls σ).ending ≠ .returned := by
  rw [request?] at h
  rw [acceptOne]
  cases haccept : acceptRequest euid calls with
  | returned line => simp [haccept] at h
  | threw what => simp
  | waiting => simp

section

variable {line : Bytes} (h : request? euid calls = some line) {s : History}

include h

theorem acceptOne_of_error {error : Exn} (hrun : (handler line).run σ = (s, .error error)) :
    acceptOne euid handler calls σ = ⟨s, [], .threw error⟩ := by
  simp only [acceptOne, request?_eq_some.mp h, hrun]

theorem acceptOne_of_ok {reply : Bytes} (hrun : (handler line).run σ = (s, .ok reply)) :
    acceptOne euid handler calls σ = ⟨s, (writeLine calls.sends reply).1,
      .ofOutcome (writeLine calls.sends reply).2⟩ := by
  simp only [acceptOne, request?_eq_some.mp h, hrun]

/-- A request is handled once, whatever becomes of the reply. -/
theorem done_acceptOne : (acceptOne euid handler calls σ).done = ((handler line).run σ).1 := by
  rcases hrun : (handler line).run σ with ⟨s, error | reply⟩
  · rw [acceptOne_of_error h hrun]
  · rw [acceptOne_of_ok h hrun]

end

/-- Serving a connection adds what handling its request adds. -/
theorem history_acceptOne : σ ++ (acceptOne euid handler calls σ).done =
    Run.history handler σ (request? euid calls).toList := by
  cases h : request? euid calls with
  | none => rw [(acceptOne_of_none h).1, List.append_nil, Option.toList_none, Run.history_nil]
  | some line =>
    rw [done_acceptOne h]
    rfl

theorem history_filterMap (rest : List ConnectionCalls) :
    Run.history handler σ ((calls :: rest).filterMap (request? euid)) =
      Run.history handler (σ ++ (acceptOne euid handler calls σ).done)
        (rest.filterMap (request? euid)) := by
  rw [history_acceptOne, ← Run.history_append]
  congr 1
  cases h : request? euid calls with
  | none => rw [List.filterMap_cons_none h, Option.toList_none, List.nil_append]
  | some line => rw [List.filterMap_cons_some h, Option.toList_some, List.singleton_append]

/-! ### Runs of the loop -/

/-- After a connection the loop ends, or goes on with the history that the connection leaves. -/
theorem serve_cons (once : Bool) (rest : List ConnectionCalls) :
    (serve euid handler once σ (calls :: rest)).1 = [acceptOne euid handler calls σ] ∨
      (serve euid handler once σ (calls :: rest)).1 = acceptOne euid handler calls σ ::
        (serve euid handler once (σ ++ (acceptOne euid handler calls σ).done) rest).1 := by
  rw [serve]
  rcases (acceptOne euid handler calls σ).ending with _ | (what | _) | _
  · cases once
    · exact .inr rfl
    · exact .inl rfl
  · cases once
    · exact .inr rfl
    · exact .inl rfl
  · exact .inl rfl
  · exact .inl rfl

/-- Each connection is served after the history of the requests before it. -/
theorem serve_log (once : Bool) {conns : List ConnectionCalls} {i : ℕ} {served : Served}
    (h : (serve euid handler once σ conns).1[i]? = some served) :
    ∃ calls, conns[i]? = some calls ∧ served = acceptOne euid handler calls
      (Run.history handler σ ((conns.take i).filterMap (request? euid))) := by
  induction conns generalizing σ i with
  | nil => simp [serve] at h
  | cons calls rest ih =>
    cases i with
    | zero =>
      refine ⟨calls, rfl, ?_⟩
      rcases serve_cons once rest with hlog | hlog
      · rw [hlog] at h
        exact (Option.some.inj h).symm
      · rw [hlog] at h
        exact (Option.some.inj h).symm
    | succ i =>
      rcases serve_cons once rest with hlog | hlog
      · rw [hlog] at h
        cases h
      · rw [hlog, List.getElem?_cons_succ] at h
        obtain ⟨calls', hcalls', hserved⟩ := ih h
        exact ⟨calls', hcalls', by rw [hserved, List.take_succ_cons, history_filterMap]⟩

theorem serve_history (once : Bool) (conns : List ConnectionCalls) :
    (serve euid handler once σ conns).1.length ≤ conns.length ∧
      σ ++ (serve euid handler once σ conns).1.flatMap Served.done = Run.history handler σ
        ((conns.take (serve euid handler once σ conns).1.length).filterMap (request? euid)) := by
  induction conns generalizing σ with
  | nil => simp [serve]
  | cons calls rest ih =>
    obtain ⟨hlen, hdone⟩ := @ih (σ ++ (acceptOne euid handler calls σ).done)
    rcases serve_cons once rest with hlog | hlog
    · rw [hlog, List.length_singleton, List.take_succ_cons, List.take_zero, history_filterMap,
        List.flatMap_singleton]
      exact ⟨by rw [List.length_cons]; omega, rfl⟩
    · rw [hlog, List.length_cons, List.length_cons, List.take_succ_cons, history_filterMap,
        List.flatMap_cons, ← List.append_assoc, hdone]
      exact ⟨by omega, rfl⟩

/-- Whatever connections come, what the daemon does is what its handler does for the requests that
it was handed, one after another. A connection without a request, as from another user's client,
does nothing and is sent nothing; one with a request is sent a first part of the reply to it, as
handled after the requests before it, and all of the reply when serving returns. -/
theorem served_in_turn (euid : ℕ) (handler : Bytes → Act Bytes) (once : Bool)
    (conns : List ConnectionCalls) :
    let log := (serve euid handler once [] conns).1
    log.length ≤ conns.length ∧ log.flatMap Served.done =
      Run.history handler [] ((conns.take log.length).filterMap (request? euid)) ∧
    ∀ i calls served, conns[i]? = some calls → log[i]? = some served →
      (request? euid calls = none →
        served.done = [] ∧ served.written = [] ∧ served.ending ≠ .returned) ∧
      ∀ line, request? euid calls = some line →
        let σ := Run.history handler [] ((conns.take i).filterMap (request? euid))
        calls.peer = .given true euid ∧ line ++ [chr '\n'] <+: arrived calls.reads ∧
        served.done = ((handler line).run σ).1 ∧
        (∀ error, ((handler line).run σ).2 = .error error →
          served.written = [] ∧ served.ending = .threw error) ∧
        ∀ reply, ((handler line).run σ).2 = .ok reply →
          served.written <+: reply ++ [chr '\n'] ∧
            (served.ending = .returned → served.written = reply ++ [chr '\n']) := by
  intro log
  obtain ⟨hlen, hdone⟩ := @serve_history euid handler [] once conns
  refine ⟨hlen, hdone, fun i calls served hcalls hserved => ?_⟩
  obtain ⟨calls', hcalls', rfl⟩ := serve_log once hserved
  obtain rfl := Option.some.inj (hcalls.symm.trans hcalls')
  refine ⟨acceptOne_of_none, fun line hline => ?_⟩
  obtain ⟨hpeer, hread⟩ := of_request? hline
  refine ⟨hpeer, (isPrefix_of_readLine hread).1, done_acceptOne hline,
    fun error herror => ?_, fun reply hreply => ?_⟩
  · rw [acceptOne_of_error hline (Prod.ext rfl herror)]
    exact ⟨rfl, rfl⟩
  · obtain ⟨hpre, hall⟩ := writeLine_isPrefix calls.sends reply
    rw [acceptOne_of_ok hline (Prod.ext rfl hreply)]
    exact ⟨hpre, fun h => hall (Ending.ofOutcome_eq_returned.mp h)⟩

end

/-! ### What the handler can throw -/

/-- A `std::exception`. -/
def IsStd (error : Exn) : Prop := ∃ what, error = .std what

section

variable (parser : Parser) (service : SessionService) (host : Host) (model : ModelProvider)

theorem raises_ofExcept {α : Type} (x : Except Bytes α) : Run.Raises IsStd (ofExcept x) := by
  cases x with
  | ok a => exact Run.raises_pure a
  | error what => exact Run.raises_throw ⟨what, rfl⟩

theorem raises_record (audit : AuditLog) (actor type summary : Bytes)
    (details : Except Bytes (OrderedMap Bytes Bytes)) :
    Run.Raises IsStd (audit.record host actor type summary details) := by
  intro σ error herror
  rcases record_cases audit host actor type summary details σ with ⟨_, _, -, -, h⟩ | ⟨what, h⟩
  · rw [h] at herror
    cases herror
  · rw [h] at herror
    exact ⟨what, (Except.error.inj herror).symm⟩

/-- What a tool throws is made into a response. -/
theorem raises_respond (request : ToolRequest) : Run.Raises IsStd (service.respond request) := by
  intro σ error herror
  obtain ⟨s, response, h, -⟩ := respond_ok service request σ
  rw [h] at herror
  cases herror

theorem raises_callTool (request : ToolRequest) (actor : Bytes) :
    Run.Raises IsStd (service.callTool host request actor) :=
  (raises_respond service request).bind fun response =>
    (raises_record host service.audit _ _ _ _).bind fun _ => Run.raises_pure response

theorem raises_modelError (question : ModelRequest) (request : ToolRequest) (actor : Bytes)
    (error : Exn) : Run.Raises IsStd (service.modelError host question request actor error) := by
  cases error with
  | std what => exact (raises_record host service.audit _ _ _ _).bind fun _ => Run.raises_pure _
  | other => exact (raises_record host service.audit _ _ _ _).bind fun _ => Run.raises_pure _

/-- What the model throws is made into a result. -/
theorem raises_askWithTool (prompt : Bytes) (request : ToolRequest) (actor : Bytes) :
    Run.Raises IsStd (service.askWithTool host prompt request model actor) := by
  refine (raises_callTool service host request actor).bind fun response => ?_
  split_ifs
  · exact (raises_record host service.audit _ _ _ _).bind fun _ => Run.raises_pure _
  · refine (raises_record host service.audit _ _ _ _).bind fun _ => ?_
    exact Run.raises_true.tryCatch fun error _ =>
      raises_modelError service host _ request actor error

theorem raises_perform (id : Bytes) (command : Command) :
    Run.Raises IsStd (perform service host model id command) := by
  cases command with
  | list => exact raises_ofExcept _
  | call request =>
    exact (raises_callTool service host request _).bind fun _ => raises_ofExcept _
  | ask prompt request =>
    exact (raises_askWithTool service host model prompt request _).bind fun _ => raises_ofExcept _
  | other => exact (raises_record host service.audit _ _ _ _).bind fun _ => raises_ofExcept _

theorem raises_protocolError (audit : AuditLog) (id : Bytes) {error : Exn} (h : IsStd error) :
    Run.Raises IsStd (protocolError audit host id error) := by
  obtain ⟨what, rfl⟩ := h
  exact (raises_record host audit _ _ _ _).bind fun _ => raises_ofExcept _

/-- Whatever a tool or the model throws, the handler throws a `std::exception` or nothing. -/
theorem raises_handleRequest (input : Bytes) :
    Run.Raises IsStd (handleRequest parser service host model input) := by
  unfold handleRequest
  cases parser.parse input with
  | error what => exact raises_protocolError host service.audit unknownId ⟨what, rfl⟩
  | ok request =>
    dsimp only
    rw [dispatch_eq]
    exact ((raises_ofExcept _).bind (raises_perform service host model _)).tryCatch
      fun _ h => raises_protocolError host service.audit _ h

end

/-! ### The loop goes on -/

/-- Every system call of the connection returns: its socket has timeouts. -/
structure Prompt (euid : ℕ) (calls : ConnectionCalls) : Prop where
  request : acceptRequest euid calls ≠ .waiting
  reply : ∀ reply, (writeLine calls.sends reply).2 ≠ .waiting

section

variable {euid : ℕ} {handler : Bytes → Act Bytes} {calls : ConnectionCalls} {σ : History}

theorem ending_of_prompt (h : Prompt euid calls)
    (hraises : ∀ line, Run.Raises IsStd (handler line)) :
    (acceptOne euid handler calls σ).ending = .returned ∨
      ∃ what, (acceptOne euid handler calls σ).ending = .threw (.std what) := by
  cases haccept : acceptRequest euid calls with
  | waiting => exact absurd haccept h.request
  | threw what => exact .inr ⟨what, by rw [acceptOne, haccept]⟩
  | returned line =>
    have hline := request?_eq_some.mpr haccept
    rcases hrun : (handler line).run σ with ⟨s, error | reply⟩
    · obtain ⟨what, rfl⟩ := hraises line σ error (by rw [hrun])
      exact .inr ⟨what, by rw [acceptOne_of_error hline hrun]⟩
    · rw [acceptOne_of_ok hline hrun]
      cases houtcome : (writeLine calls.sends reply).2 with
      | returned _ => exact .inl rfl
      | threw what => exact .inr ⟨what, rfl⟩
      | waiting => exact absurd houtcome (h.reply reply)

end

/-- No client, tool or model ends the daemon: when every system call of every connection
returns, and every redaction of a text does, each connection is served and the next is waited
for. With `--once` the first connection is the only one, and the exit code says whether its
reply was written. -/
theorem daemon_goes_on (parser : Parser) (service : SessionService) (host : Host)
    (model : ModelProvider) (euid : ℕ) (conns : List ConnectionCalls)
    (hprompt : ∀ calls ∈ conns, Prompt euid calls) (σ : History) :
    let handler := handleRequest parser service host model
    ((serve euid handler false σ conns).1.length = conns.length ∧
      (serve euid handler false σ conns).2 = .serving) ∧
    ∀ calls rest, conns = calls :: rest →
      serve euid handler true σ conns = ([acceptOne euid handler calls σ],
        .exited (if (acceptOne euid handler calls σ).ending = .returned then 0 else 1)) := by
  intro handler
  have hending (calls : ConnectionCalls) (hcalls : calls ∈ conns) (σ : History) :=
    @ending_of_prompt euid handler calls σ (hprompt calls hcalls)
      (raises_handleRequest parser service host model)
  constructor
  · induction conns generalizing σ with
    | nil => exact ⟨rfl, rfl⟩
    | cons calls rest ih =>
      obtain ⟨hlen, hexit⟩ := ih (fun calls' h => hprompt calls' (List.mem_cons_of_mem _ h))
        (σ ++ (acceptOne euid handler calls σ).done)
        (fun calls' h => hending calls' (List.mem_cons_of_mem _ h))
      rcases hending calls List.mem_cons_self σ with hend | ⟨what, hend⟩
      · simp [serve, hend, hlen, hexit]
      · simp [serve, hend, hlen, hexit]
  · rintro calls rest rfl
    rcases hending calls List.mem_cons_self σ with hend | ⟨what, hend⟩
    · simp [serve, hend]
    · simp [serve, hend]

/-- A client of another user. -/
def strangerCalls : ConnectionCalls where
  accepts := [.again, .accepted]
  receiveTimeout := none
  sendTimeout := none
  peer := .given true 1001
  reads := [.bytes (ascii "\x7b\x7d\n")]
  sends := [.failed (ascii "Broken pipe")]

/-- A client that is gone after the first bytes of a reply. -/
def hastyCalls : ConnectionCalls :=
  { strangerCalls with
    peer := .given true 1000
    sends := [.wrote 64, .failed (ascii "Broken pipe")] }

theorem daemon_goes_on_hasty :
    ((serve 1000 (handleRequest jsonParser infoService stillHost (constantModel [])) false []
      [strangerCalls, hastyCalls]).1.length = 2 ∧
    (serve 1000 (handleRequest jsonParser infoService stillHost (constantModel [])) false []
      [strangerCalls, hastyCalls]).2 = .serving) := by
  have hprompt : ∀ calls ∈ [strangerCalls, hastyCalls], Prompt 1000 calls := by
    intro calls hcalls
    rcases List.mem_pair.mp hcalls with rfl | rfl
    · exact ⟨by decide, writeLine_ends ⟨ascii "Broken pipe", by decide⟩⟩
    · exact ⟨by decide, writeLine_ends ⟨ascii "Broken pipe", by decide⟩⟩
  exact (daemon_goes_on jsonParser infoService stillHost (constantModel []) 1000 _ hprompt []).1

end Kasli.Kaslid
