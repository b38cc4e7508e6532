import Kasli.App.Attempts
import Kasli.Cli.Params
import Kasli.Kaslid.Connection

/-! The command line client (`kasli-cli/main.cpp`). Its options choose one request, which is sent to
the daemon or not at all, and the daemon carries out what the options say. What the option parser
makes of the command line is a parameter. -/

namespace Kasli.Cli

open Core Session Ipc App Kaslid

/-- The command line as it is parsed: the path of the socket and how often it was given, the flag
of the list, the tool to be called, the question and its tool, and the parameters. -/
structure CliOptions where
  socketPath : Bytes
  socketCount : ℕ
  listTools : Bool
  callTool : Bytes
  askPrompt : Bytes
  askTool : Bytes
  toolParams : List Bytes

/-- How the process ends: with a code and what it has printed, or by an exception that nothing
catches. -/
inductive Exit
  | exited (code : ℕ) (out err : Bytes)
  | terminated
  deriving DecidableEq

/-- A request for a tool; all that the client asks for is read-only. -/
def toolRequest (id toolName : Bytes) (params : OrderedMap Bytes Bytes) : ToolRequest :=
  { id, toolName, risk := .readOnly, params }

/-- The request that is made of the options, or what is printed in its place. -/
def selectRequest (help : Bytes) (options : CliOptions) (params : OrderedMap Bytes Bytes) :
    Except Bytes Json :=
  if options.listTools then
    if params.entries ≠ [] then .error (ascii "--param requires --call-tool or --ask")
    else .ok (makeToolsListRequest (ascii "cli-1"))
  else if options.callTool ≠ [] then
    .ok (makeToolCallRequest (ascii "cli-2")
      (toolRequest (ascii "cli-tool-1") options.callTool params))
  else if options.askPrompt ≠ [] then
    .ok (makeAskRequest (ascii "cli-ask-1") options.askPrompt
      (toolRequest (ascii "cli-ask-tool-1") options.askTool params))
  else .error help

section

variable (deps : DaemonAutostartDeps) (help : Bytes) (options : CliOptions)

/-- `what()` -/
def errorText : RequestError → Bytes
  | .connect errorNumber => connectErrorText deps errorNumber
  | .other what => what

def exitOf : Except RequestError Bytes → Exit
  | .ok answer => .exited 0 (answer ++ ascii "\n") []
  | .error error => .exited 1 [] (whatOf (errorText deps error) ++ ascii "\n")

/-- The daemon may be started when the socket is the default one. -/
def allowAutostart : Bool := options.socketCount == 0

/-- The request is encoded outside of the try block. -/
def main : Client Exit :=
  match parseToolParams options.toolParams with
  | .error what => return .exited 1 [] (what ++ ascii "\n")
  | .ok params =>
    match selectRequest help options params with
    | .error message => return .exited 1 [] (message ++ ascii "\n")
    | .ok json =>
      match json.dump with
      | .error _ => return .terminated
      | .ok request =>
        tryCatch (do
          let answer ← requestWithOptionalUserServiceStart deps options.socketPath request
            (allowAutostart options)
          return exitOf deps (.ok answer)) fun error => return exitOf deps (.error error)

end

/-! ### What is sent -/

/-- What the options say: the id of the request, and the daemon's command. -/
def commandOf (options : CliOptions) (params : OrderedMap Bytes Bytes) : Option (Bytes × Command) :=
  if options.listTools then
    if params.entries ≠ [] then none else some (ascii "cli-1", .list)
  else if options.callTool ≠ [] then
    some (ascii "cli-2", .call (toolRequest (ascii "cli-tool-1") options.callTool params))
  else if options.askPrompt ≠ [] then
    some (ascii "cli-ask-1",
      .ask options.askPrompt (toolRequest (ascii "cli-ask-tool-1") options.askTool params))
  else none

section

variable {deps : DaemonAutostartDeps} {help : Bytes} {options : CliOptions}
  {params : OrderedMap Bytes Bytes} {json : Json} {σ : List App.Action}

theorem written_toolsListRequest (id : Bytes) : (makeToolsListRequest id).Written :=
  Json.written_ofPairs (by simp [Json.Written])

/-- A request is made exactly when the options say something, and decodes as what they say. -/
theorem selectRequest_cases (help : Bytes) (options : CliOptions)
    (params : OrderedMap Bytes Bytes) :
    (commandOf options params = none ∧ ∃ message,
      selectRequest help options params = .error message) ∨
    ∃ id command json, commandOf options params = some (id, command) ∧
      selectRequest help options params = .ok json ∧ json.Written ∧
      requestIdOrUnknown json = id ∧ decode json = .ok command := by
  rw [selectRequest, commandOf]
  split_ifs
  · exact .inl ⟨rfl, _, rfl⟩
  · exact .inr ⟨_, _, _, rfl, rfl, written_toolsListRequest _,
      by rw [makeToolsListRequest, requestIdOrUnknown_ofPairs rfl],
      decode_toolsListRequest (by decide)⟩
  · exact .inr ⟨_, _, _, rfl, rfl, written_toolCallRequest,
      by rw [makeToolCallRequest, requestIdOrUnknown_ofPairs rfl],
      decode_toolCallRequest (by decide)⟩
  · exact .inr ⟨_, _, _, rfl, rfl, written_askRequest,
      by rw [makeAskRequest, requestIdOrUnknown_ofPairs rfl], decode_askRequest (by decide)⟩
  · exact .inl ⟨rfl, _, rfl⟩

/-- A request that can be encoded is sent, and its outcome ends the process. -/
theorem run_main (hparams : parseToolParams options.toolParams = .ok params)
    (hselect : selectRequest help options params = .ok json) (he : json.Encodable) :
    (main deps help options).run σ =
      (((requestWithOptionalUserServiceStart deps options.socketPath json.render
          (allowAutostart options)).run σ).1,
        .ok (exitOf deps ((requestWithOptionalUserServiceStart deps options.socketPath json.render
          (allowAutostart options)).run σ).2)) := by
  simp only [main, hparams, hselect, Json.dump_of_encodable he]
  rcases hrun : (requestWithOptionalUserServiceStart deps options.socketPath json.render
    (allowAutostart options)).run σ with ⟨s, error | answer⟩
  · rw [Run.run_tryCatch_of_error (Run.run_bind_of_error hrun), Run.run_pure, List.append_nil]
  · refine (Run.run_tryCatch_of_ok (a := exitOf deps (.ok answer)) ?_)
    rw [Run.run_bind_of_ok hrun, Run.run_pure, List.append_nil]

end

/-- The client attempts nothing, or to send one line, which makes the daemon carry out the command
that the options say. It attempts that exactly when the parameters are read, there is a command, and
its text is well-formed UTF-8; when only that fails, the process is terminated. Every attempt is
with this line; one that gets past connecting is the last thing it does, and its outcome is what it
exits with. -/
theorem cli_sends_command {parser : Parser} (hparse : Json.Undoes parser.parse)
    (deps : DaemonAutostartDeps) (help : Bytes) (options : CliOptions) (σ : List App.Action) :
    let result := (main deps help options).run σ
    (result.1 = [] ∧ (∃ err, result.2 = .ok (.exited 1 [] err)) ∧
      ∀ params, parseToolParams options.toolParams = .ok params →
        commandOf options params = none) ∨
    ∃ params id command json, parseToolParams options.toolParams = .ok params ∧
      commandOf options params = some (id, command) ∧
      selectRequest help options params = .ok json ∧
      (¬ json.Encodable ∧ result = ([], .ok .terminated) ∨
        (∀ service host model, handleRequest parser service host model json.render =
          tryCatch (perform service host model id command)
            (protocolError service.audit host id)) ∧
        (∃ rest, result.1 = .attempt (deps.request options.socketPath json.render σ) :: rest) ∧
        (∃ outcome, result.2 = .ok (exitOf deps outcome)) ∧
        ∀ before outcome after, result.1 = before ++ .attempt outcome :: after →
          outcome = deps.request options.socketPath json.render (σ ++ before) ∧
            (pastConnecting outcome = true →
              after = [] ∧ result.2 = .ok (exitOf deps outcome))) := by
  intro result
  cases hparams : parseToolParams options.toolParams with
  | error what =>
    have hresult : result = ([], .ok (.exited 1 [] (what ++ ascii "\n"))) := by
      simp only [result, main, hparams, Run.run_pure]
    refine .inl ⟨by rw [hresult], ⟨_, by rw [hresult]⟩, fun params h => ?_⟩
    cases h
  | ok params =>
    rcases selectRequest_cases help options params with ⟨hnone, message, hselect⟩ |
      ⟨id, command, json, hcommand, hselect, hw, hid, hd⟩
    · have hresult : result = ([], .ok (.exited 1 [] (message ++ ascii "\n"))) := by
        simp only [result, main, hparams, hselect, Run.run_pure]
      refine .inl ⟨by rw [hresult], ⟨_, by rw [hresult]⟩, fun params' h => ?_⟩
      rw [← Except.ok.inj h, hnone]
    · refine .inr ⟨params, id, command, json, rfl, hcommand, hselect, ?_⟩
      by_cases he : json.Encodable
      · right
        have hresult : result = _ := run_main hparams hselect he
        have hdelivers := delivers deps options.socketPath json.render (allowAutostart options) σ
        have hrequested := @keeps_request deps options.socketPath json.render σ
          (allowAutostart options) σ requested_self
        refine ⟨fun service host model => ?_, by rw [hresult]; exact first_request,
          ⟨_, by rw [hresult]⟩, fun before outcome after hs => ?_⟩
        · rw [handleRequest_render service host model hparse hw he hd, hid]
        · rw [hresult] at hs ⊢
          refine ⟨hrequested before outcome after (congrArg _ hs), fun hpast => ?_⟩
          obtain ⟨hafter, houtcome⟩ := hdelivers.endsWithPast before outcome after hs hpast
          exact ⟨hafter, by rw [houtcome]⟩
      · obtain ⟨what, hdump, -⟩ := Json.dump_error_of_not_encodable he
        refine .inl ⟨he, ?_⟩
        simp only [result, main, hparams, hselect, hdump, Run.run_pure]

/-! ### A tool call from the command line -/

/-- The line of a tool call. -/
def callLine (options : CliOptions) (params : OrderedMap Bytes Bytes) : Bytes :=
  (makeToolCallRequest (ascii "cli-2")
    (toolRequest (ascii "cli-tool-1") options.callTool params)).render

/-- `--call-tool` over a connection that works: the daemon calls the tool of that name with the
parameters of the command line and does nothing else, and the client prints one line, which conveys
the tool's response. -/
theorem cli_call_delivered {parser : Parser} {service : SessionService} {host : Host}
    {model : ModelProvider} (hparse : Json.Undoes parser.parse) (deps : DaemonAutostartDeps)
    (help : Bytes) (options : CliOptions) (params : OrderedMap Bytes Bytes)
    (hlist : options.listTools = false) (htool : options.callTool ≠ [])
    (hparams : parseToolParams options.toolParams = .ok params)
    (hrequest : (toolRequest (ascii "cli-tool-1") options.callTool params).Valid)
    (hlen : (callLine options params).length ≤ maxUnixSocketLineBytes)
    {euid : ℕ} {client : ClientCalls} {conn : ConnectionCalls} {σ s : History}
    (h : Working euid client conn options.socketPath (callLine options params)
      (acceptOne euid (handleRequest parser service host model) conn σ))
    (hrun : (requestOverUnixSocket client options.socketPath (callLine options params)).2 =
      some (deps.request options.socketPath (callLine options params) []))
    {response : ToolResponse}
    (hcall : (service.callTool host (toolRequest (ascii "cli-tool-1") options.callTool params)
      (ascii "cli")).run σ = (s, .ok response))
    (hresponse : response.Valid)
    (hsize : (Reply.called response).size (ascii "cli-2") ≤ maxUnixSocketLineBytes) :
    (acceptOne euid (handleRequest parser service host model) conn σ).done = s ∧
      ∃ answer json, (main deps help options).run [] =
          ([.attempt (.ok answer)], .ok (.exited 0 (answer ++ ascii "\n") [])) ∧
        chr '\n' ∉ answer ∧ parser.parse answer = .ok json ∧
        Conveys json (ascii "cli-2") response := by
  obtain ⟨hdone, answer, json, hanswer, hread, hconveys⟩ := tool_call_delivered hparse (by decide)
    (by decide) hrequest hlen h hcall hresponse hsize
  rw [callLine, hanswer] at hrun
  have hattempt := @run_attempt deps options.socketPath (callLine options params) []
  rw [callLine, ← Option.some.inj hrun] at hattempt
  refine ⟨hdone, answer, json, ?_, ?_, hread, hconveys⟩
  · have hselect : selectRequest help options params = .ok (makeToolCallRequest (ascii "cli-2")
        (toolRequest (ascii "cli-tool-1") options.callTool params)) := by
      rw [selectRequest, hlist, if_neg Bool.false_ne_true, if_pos htool]
    rw [run_main hparams hselect (encodable_toolCallRequest (by decide) hrequest),
      requestWithOptionalUserServiceStart, Run.run_tryCatch_of_ok hattempt]
    rfl
  · exact (isPrefix_of_readLine (readLine_of_answer hanswer)).2

def upOptions : CliOptions where
  socketPath := ascii "kaslid.sock"
  socketCount := 0
  listTools := false
  callTool := ascii "system.info"
  askPrompt := []
  askTool := ascii "system.info"
  toolParams := []

def upRequest : ToolRequest := toolRequest (ascii "cli-tool-1") (ascii "system.info") .empty

theorem upRequest_valid : upRequest.Valid := ⟨by decide, by decide, by decide⟩

theorem cli_sends_command_up : ∃ params id command json,
    parseToolParams upOptions.toolParams = .ok params ∧
    commandOf upOptions params = some (id, command) ∧
    selectRequest [] upOptions params = .ok json ∧
    (¬ json.Encodable ∧ (main lateDaemon [] upOptions).run [] = ([], .ok .terminated) ∨
      (∀ service host model, handleRequest jsonParser service host model json.render =
        tryCatch (perform service host model id command)
          (protocolError service.audit host id)) ∧
      (∃ rest, ((main lateDaemon [] upOptions).run []).1 =
        .attempt (lateDaemon.request upOptions.socketPath json.render []) :: rest) ∧
      (∃ outcome, ((main lateDaemon [] upOptions).run []).2 = .ok (exitOf lateDaemon outcome)) ∧
      ∀ before outcome after,
        ((main lateDaemon [] upOptions).run []).1 = before ++ .attempt outcome :: after →
        outcome = lateDaemon.request upOptions.socketPath json.render ([] ++ before) ∧
        (pastConnecting outcome = true → after = [] ∧
          ((main lateDaemon [] upOptions).run []).2 = .ok (exitOf lateDaemon outcome))) := by
  rcases @cli_sends_command jsonParser Json.undoes_parse lateDaemon [] upOptions []
    with ⟨-, -, hnone⟩ | h
  · cases hnone .empty rfl
  · exact h

def upLine : Bytes := callLine upOptions .empty

theorem upLine_length : upLine.length ≤ maxUnixSocketLineBytes := by decide +kernel

def upClient : ClientCalls :=
  plainClient (acceptOne 1000 upHandler (plainConnection 1000 (upLine ++ [chr '\n'])) []).written

theorem working_upClient : Working 1000 upClient (plainConnection 1000 (upLine ++ [chr '\n']))
    upOptions.socketPath upLine
    (acceptOne 1000 upHandler (plainConnection 1000 (upLine ++ [chr '\n'])) []) := by
  have hnot : chr '\n' ∉ upLine := by
    rw [upLine, callLine]
    exact Json.newline_notMem_render _
  exact working_plain (by decide) hnot upLine_length

def upDeps : DaemonAutostartDeps where
  request socketPath request _ :=
    (requestOverUnixSocket upClient socketPath request).2.getD (.error (.other []))
  startUserService _ := 0
  socketExists _ _ := true
  strerror _ := []

theorem callTool_upRequest : ∃ s, (upService.callTool stillHost upRequest (ascii "cli")).run [] =
    (s, .ok upResponse) := by
  have hascii : ∀ value, IsAscii value → CutsClean value maxAuditStringBytes := fun value h =>
    cutsClean_of_isAscii h _
  have hclean : CallClean upRequest upResponse :=
    ⟨hascii _ (by decide), hascii _ (by decide),
      by simp [upRequest, toolRequest, OrderedMap.empty], cutsClean_of_isAscii (by decide +kernel) _,
      hascii _ (by decide),
      ⟨by simp [upResponse, infoResponse], cutsClean_of_isAscii (by decide +kernel) _⟩⟩
  have hresponds : (upService.respond upRequest).run [] =
      ([.executed (ascii "system.info") upRequest], .ok upResponse) :=
    respond_constantTool upResponse upRequest rfl []
  have hwritable : stillHost.Writable := fun _ _ => rfl
  have hactor : Utf8.Valid (ascii "cli") := by decide
  rcases callTool_evaluated hwritable hactor upRequest_valid upResponse_valid hresponds with
    ⟨-, _, -, hcall⟩ | ⟨hnot, -⟩
  · exact ⟨_, hcall⟩
  · exact absurd hclean hnot

theorem cli_call_delivered_up : ∃ s,
    (acceptOne 1000 upHandler (plainConnection 1000 (upLine ++ [chr '\n'])) []).done = s ∧
      ∃ answer json, (main upDeps [] upOptions).run [] =
          ([.attempt (.ok answer)], .ok (.exited 0 (answer ++ ascii "\n") [])) ∧
        chr '\n' ∉ answer ∧ jsonParser.parse answer = .ok json ∧
        Conveys json (ascii "cli-2") upResponse := by
  obtain ⟨s, hcall⟩ := callTool_upRequest
  have hworking := working_upClient
  unfold upHandler at hworking
  have hnot : chr '\n' ∉ upLine := by
    rw [upLine, callLine]
    exact Json.newline_notMem_render _
  have houtcome := outcome_of_working hworking hnot upLine_length
  have hrun : (requestOverUnixSocket upClient upOptions.socketPath upLine).2 =
      some (upDeps.request upOptions.socketPath upLine []) := by
    simp only [upDeps, houtcome, Option.getD_some]
  have hsize : (Reply.called upResponse).size (ascii "cli-2") ≤ maxUnixSocketLineBytes := by
    rw [size_upReply]
    decide
  exact ⟨s, cli_call_delivered Json.undoes_parse upDeps [] upOptions .empty rfl (by decide) rfl
    upRequest_valid upLine_length hworking hrun hcall upResponse_valid hsize⟩

end Kasli.Cli
