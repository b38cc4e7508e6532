import Kasli.Session.SessionService

/-! The daemon's request handler (`kaslid/main.cpp`, `ipc/line_protocol.cpp`). A line is
parsed, its command decoded and carried out, and the reply encoded. Whatever of
`std::exception` is thrown on the way is recorded as a protocol error and answered with
an error reply; recording and encoding can throw again, and then the handler throws. -/

namespace Kasli.Kaslid

open Core Audit Session

/-- `nlohmann::json::parse`: a value, all of whose strings are well-formed UTF-8, or what the
exception says, which quotes bytes of the input. -/
structure Parser where
  parse : Bytes → Except Bytes Json
  encodable : ∀ input json, parse input = .ok json → json.Encodable

/-! ### Replies -/

def toolsListResponse (id : Bytes) (tools : List Bytes) : Json :=
  .ofPairs [(ascii "id", .string id), (ascii "ok", .bool true),
    (ascii "tools", .array (tools.map .string))]

def makeToolCallResponse (id : Bytes) (response : ToolResponse) : Json :=
  .ofPairs [(ascii "id", .string id), (ascii "ok", .bool (response.status = .ok)),
    (ascii "response", response.toJson)]

def makeAskResponse (id : Bytes) (ok : Bool) (answer error : Bytes) : Json :=
  .ofPairs ([(ascii "id", .string id), (ascii "ok", .bool ok)] ++
    if ok then [(ascii "answer", .string answer)] else [(ascii "error", .string error)])

def makeErrorResponse (id message : Bytes) : Json :=
  .ofPairs [(ascii "id", .string id), (ascii "ok", .bool false), (ascii "error", .string message)]

/-! ### The handler -/

def unknownId : Bytes := ascii "unknown"

def requestIdOrUnknown (request : Json) : Bytes :=
  if request.contains (ascii "id") then
    match request.at? (ascii "id") with
    | .ok (.string id) => id
    | _ => unknownId
  else unknownId

/-- The daemon's own bound: the string is cut, and not redacted. -/
def boundAuditString (value : Bytes) : Bytes :=
  if value.length ≤ 2048 then value else value.take (2048 - marker.length) ++ marker

def auditProtocolError (audit : AuditLog) (host : Host) (requestId message : Bytes) : Act Unit :=
  audit.record host (ascii "cli") (ascii "protocol.error") (boundAuditString message)
    (.ok (.ofList [(ascii "request_id", boundAuditString requestId)]))

/-- The body of the try block, once the line is parsed and its id is known. -/
def dispatch (service : SessionService) (host : Host) (model : ModelProvider) (id : Bytes)
    (request : Json) : Act Bytes :=
  if id = unknownId then throw (.std (ascii "request id is required"))
  else do
    let method ← ofExcept (do (← request.at? (ascii "method")).getString)
    if method = ascii "tools.list" then
      ofExcept (toolsListResponse id service.listTools).dump
    else if method = ascii "tool.call" then do
      let toolRequest ← ofExcept (do ToolRequest.fromJson (← request.at? (ascii "tool")))
      let response ← service.callTool host toolRequest (ascii "cli")
      ofExcept (makeToolCallResponse id response).dump
    else if method = ascii "ask" then do
      let prompt ← ofExcept (do (← request.at? (ascii "prompt")).getString)
      let toolRequest ← ofExcept (do ToolRequest.fromJson (← request.at? (ascii "tool")))
      let result ← service.askWithTool host prompt toolRequest model (ascii "cli")
      ofExcept (makeAskResponse id result.ok result.answer result.error).dump
    else do
      auditProtocolError service.audit host id (ascii "unknown method")
      ofExcept (makeErrorResponse id (ascii "unknown method")).dump

/-- The catch clause; it does not catch what is no `std::exception`. -/
def protocolError (audit : AuditLog) (host : Host) (id : Bytes) : Exn → Act Bytes
  | .std what => do
    auditProtocolError audit host id what
    ofExcept (makeErrorResponse id what).dump
  | .other => throw .other

/-- A line that does not parse is reported under the id `unknown`. -/
def handleRequest (parser : Parser) (service : SessionService) (host : Host) (model : ModelProvider)
    (input : Bytes) : Act Bytes :=
  match parser.parse input with
  | .error what => protocolError service.audit host unknownId (.std what)
  | .ok request =>
    let id := requestIdOrUnknown request
    tryCatch (dispatch service host model id request) (protocolError service.audit host id)

/-! ### Commands -/

/-- What a parsed line asks for. -/
inductive Command
  | list
  | call (request : ToolRequest)
  | ask (prompt : Bytes) (request : ToolRequest)
  | other
  deriving DecidableEq

/-- The command of a line, or what is wrong with the line. -/
def decode (request : Json) : Except Bytes Command :=
  if requestIdOrUnknown request = unknownId then .error (ascii "request id is required")
  else do
    let method ← (← request.at? (ascii "method")).getString
    if method = ascii "tools.list" then
      return .list
    else if method = ascii "tool.call" then
      return .call (← ToolRequest.fromJson (← request.at? (ascii "tool")))
    else if method = ascii "ask" then do
      let prompt ← (← request.at? (ascii "prompt")).getString
      return .ask prompt (← ToolRequest.fromJson (← request.at? (ascii "tool")))
    else
      return .other

/-- Carrying out a command. -/
def perform (service : SessionService) (host : Host) (model : ModelProvider) (id : Bytes) :
    Command → Act Bytes
  | .list => ofExcept (toolsListResponse id service.listTools).dump
  | .call request => do
    let response ← service.callTool host request (ascii "cli")
    ofExcept (makeToolCallResponse id response).dump
  | .ask prompt request => do
    let result ← service.askWithTool host prompt request model (ascii "cli")
    ofExcept (makeAskResponse id result.ok result.answer result.error).dump
  | .other => do
    auditProtocolError service.audit host id (ascii "unknown method")
    ofExcept (makeErrorResponse id (ascii "unknown method")).dump

/-- Nothing is done before the whole command is decoded. -/
theorem dispatch_eq (service : SessionService) (host : Host) (model : ModelProvider)
    (request : Json) : dispatch service host model (requestIdOrUnknown request) request =
      ofExcept (decode request) >>= perform service host model (requestIdOrUnknown request) := by
  unfold dispatch decode
  by_cases hid : requestIdOrUnknown request = unknownId
  · simp only [hid, if_true]
    rfl
  simp only [hid, if_false]
  cases request.at? (ascii "method") with
  | error what => rfl
  | ok j =>
    simp only [ok_bind]
    cases j.getString with
    | error what => rfl
    | ok method =>
      simp only [ok_bind, ofExcept_ok, Run.pure_bind]
      split_ifs
      · simp only [ofExcept_pure, Run.pure_bind, perform]
      · cases request.at? (ascii "tool") with
        | error what => rfl
        | ok tool =>
          simp only [ok_bind]
          cases ToolRequest.fromJson tool with
          | error what => rfl
          | ok toolRequest =>
            simp only [ok_bind, ofExcept_ok, ofExcept_pure, Run.pure_bind, perform]
      · cases request.at? (ascii "prompt") with
        | error what => rfl
        | ok p =>
          simp only [ok_bind]
          cases p.getString with
          | error what => rfl
          | ok prompt =>
            cases request.at? (ascii "tool") with
            | error what => simp only [ok_bind, ofExcept_ok, Run.pure_bind]; rfl
            | ok tool =>
              simp only [ok_bind]
              cases ToolRequest.fromJson tool with
              | error what => simp only [ofExcept_ok, Run.pure_bind]; rfl
              | ok toolRequest =>
                simp only [ok_bind, ofExcept_ok, ofExcept_pure, Run.pure_bind, perform]
      · simp only [ofExcept_pure, Run.pure_bind, perform]

end Kasli.Kaslid
