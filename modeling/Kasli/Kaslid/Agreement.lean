import Kasli.Core.RoundTrip
import Kasli.Kaslid.HandleRequest
import Kasli.Session.Integrity

/-! The two ends of a connection. A client writes its requests as lines
(`ipc/line_protocol.cpp`); the daemon reads each as the call that was meant, makes exactly
this call, and the client reads from the reply what the call returned. -/

namespace Kasli.Kaslid

open Core Session Utf8

/-! ### Requests -/

def makeToolsListRequest (requestId : Bytes) : Json :=
  .ofPairs [(ascii "id", .string requestId), (ascii "method", .string (ascii "tools.list"))]

def makeToolCallRequest (requestId : Bytes) (toolRequest : ToolRequest) : Json :=
  .ofPairs [(ascii "id", .string requestId), (ascii "method", .string (ascii "tool.call")),
    (ascii "tool", toolRequest.toJson)]

def makeAskRequest (requestId prompt : Bytes) (toolRequest : ToolRequest) : Json :=
  .ofPairs [(ascii "id", .string requestId), (ascii "method", .string (ascii "ask")),
    (ascii "prompt", .string prompt), (ascii "tool", toolRequest.toJson)]

section Requests

variable {requestId prompt : Bytes} {toolRequest : ToolRequest}

theorem requestIdOrUnknown_ofPairs {ms : List (Bytes × Json)}
    (h : OrderedMap.lookup (ascii "id") ms = some (.string requestId)) :
    requestIdOrUnknown (.ofPairs ms) = requestId := by
  rw [requestIdOrUnknown, Json.contains_ofPairs h, Json.at?_ofPairs h]
  rfl

theorem decode_toolsListRequest (hid : requestId ≠ unknownId) :
    decode (makeToolsListRequest requestId) = .ok .list := by
  unfold decode makeToolsListRequest
  rw [@requestIdOrUnknown_ofPairs requestId _ rfl, if_neg hid,
    Json.at?_ofPairs (v := .string (ascii "tools.list")) rfl]
  rfl

theorem decode_toolCallRequest (hid : requestId ≠ unknownId) :
    decode (makeToolCallRequest requestId toolRequest) = .ok (.call toolRequest) := by
  unfold decode makeToolCallRequest
  rw [@requestIdOrUnknown_ofPairs requestId _ rfl, if_neg hid,
    Json.at?_ofPairs (v := .string (ascii "tool.call")) rfl,
      Json.at?_ofPairs (v := toolRequest.toJson) rfl]
  simp only [ok_bind, Json.getString_string, toolRequest.fromJson_toJson]
  rfl

theorem decode_askRequest (hid : requestId ≠ unknownId) :
    decode (makeAskRequest requestId prompt toolRequest) = .ok (.ask prompt toolRequest) := by
  unfold decode makeAskRequest
  rw [@requestIdOrUnknown_ofPairs requestId _ rfl, if_neg hid,
    Json.at?_ofPairs (v := .string (ascii "ask")) rfl,
      Json.at?_ofPairs (v := toolRequest.toJson) rfl,
    Json.at?_ofPairs (v := .string prompt) rfl]
  simp only [ok_bind, Json.getString_string, toolRequest.fromJson_toJson]
  rfl

theorem encodable_toolCallRequest (hid : Valid requestId) (h : toolRequest.Valid) :
    (makeToolCallRequest requestId toolRequest).Encodable := by
  have hkeys : ∀ k ∈ ["id", "method", "tool", "tool.call"], Valid (ascii k) := by decide
  simp only [List.forall_mem_cons] at hkeys
  rw [makeToolCallRequest, Json.encodable_ofPairs (by simp only [List.map]; decide)]
  simp [hkeys, hid, h.encodable]

theorem encodable_askRequest (hid : Valid requestId) (hprompt : Valid prompt)
    (h : toolRequest.Valid) : (makeAskRequest requestId prompt toolRequest).Encodable := by
  have hkeys : ∀ k ∈ ["id", "method", "prompt", "tool", "ask"], Valid (ascii k) := by decide
  simp only [List.forall_mem_cons] at hkeys
  rw [makeAskRequest, Json.encodable_ofPairs (by simp only [List.map]; decide)]
  simp [hkeys, hid, hprompt, h.encodable]

theorem written_toolCallRequest : (makeToolCallRequest requestId toolRequest).Written :=
  Json.written_ofPairs (by simp [Json.Written, toolRequest.written_toJson])

theorem written_askRequest : (makeAskRequest requestId prompt toolRequest).Written :=
  Json.written_ofPairs (by simp [Json.Written, toolRequest.written_toJson])

end Requests

/-! ### The daemon's side -/

section Daemon

variable {parser : Parser} (service : SessionService) (host : Host) (model : ModelProvider)

/-- A written request that decodes is carried out, under its own id. -/
theorem handleRequest_render (hparse : Json.Undoes parser.parse) {json : Json} (hw : json.Written)
    (he : json.Encodable) {command : Command} (hd : decode json = .ok command) :
    handleRequest parser service host model json.render =
      tryCatch (perform service host model (requestIdOrUnknown json) command)
        (protocolError service.audit host (requestIdOrUnknown json)) := by
  rw [handleRequest, hparse json hw he]
  simp only [dispatch_eq, hd, ofExcept_ok, Run.pure_bind]

end Daemon

/-! ### Replies -/

section Replies

variable {id : Bytes} {response : ToolResponse}

theorem encodable_toolCallResponse (hid : Valid id) (h : response.Valid) :
    (makeToolCallResponse id response).Encodable := by
  have hkeys : ∀ k ∈ ["id", "ok", "response"], Valid (ascii k) := by decide
  simp only [List.forall_mem_cons] at hkeys
  rw [makeToolCallResponse, Json.encodable_ofPairs (by simp only [List.map]; decide)]
  simp [hkeys, hid, h.encodable]

theorem written_toolCallResponse : (makeToolCallResponse id response).Written :=
  Json.written_ofPairs (by simp [Json.Written, response.written_toJson])

/-- What the client reads from the reply to a tool call. -/
structure Conveys (json : Json) (id : Bytes) (response : ToolResponse) : Prop where
  id : json.at? (ascii "id") >>= Json.getString = .ok id
  ok : json.at? (ascii "ok") = .ok (.bool (response.status = .ok))
  response : json.at? (ascii "response") >>= ToolResponse.fromJson = .ok response

theorem conveys_toolCallResponse : Conveys (makeToolCallResponse id response) id response := by
  unfold makeToolCallResponse
  refine ⟨?_, ?_, ?_⟩
  · rw [Json.at?_ofPairs (v := .string id) rfl]
    rfl
  · rw [Json.at?_ofPairs (v := .bool (response.status = .ok)) rfl]
  · rw [Json.at?_ofPairs (v := response.toJson) rfl, ok_bind, response.fromJson_toJson]

end Replies

/-! ### Agreement -/

section Agreement

variable (parser : Parser) (service : SessionService) (host : Host) (model : ModelProvider)

/-- A written tool call makes the daemon call the tool with an equal request and nothing else,
and its reply conveys the response to the client. -/
def CallAgrees (id : Bytes) (request : ToolRequest) : Prop :=
  ∃ line, (makeToolCallRequest id request).dump = .ok line ∧
    handleRequest parser service host model line =
      tryCatch (do
        let response ← service.callTool host request (ascii "cli")
        ofExcept (makeToolCallResponse id response).dump) (protocolError service.audit host id) ∧
    ∀ σ s response, (service.callTool host request (ascii "cli")).run σ = (s, .ok response) →
      response.Valid →
      ∃ reply json, (handleRequest parser service host model line).run σ = (s, .ok reply) ∧
        parser.parse reply = .ok json ∧ Conveys json id response

/-- A written question makes the daemon ask with an equal prompt and request, and nothing else. -/
def AskAgrees (id prompt : Bytes) (request : ToolRequest) : Prop :=
  ∃ line, (makeAskRequest id prompt request).dump = .ok line ∧
    handleRequest parser service host model line =
      tryCatch (do
        let result ← service.askWithTool host prompt request model (ascii "cli")
        ofExcept (makeAskResponse id result.ok result.answer result.error).dump)
      (protocolError service.audit host id)

variable {parser} {id prompt : Bytes} {request : ToolRequest}

theorem callAgrees (hparse : Json.Undoes parser.parse) (hid : id ≠ unknownId) (hv : Valid id)
    (h : request.Valid) :
    CallAgrees parser service host model id request := by
  have he := encodable_toolCallRequest hv h
  have heq := handleRequest_render service host model hparse written_toolCallRequest he
    (@decode_toolCallRequest id request hid)
  have hsame : requestIdOrUnknown (makeToolCallRequest id request) = id :=
    requestIdOrUnknown_ofPairs rfl
  rw [hsame] at heq
  refine ⟨_, Json.dump_of_encodable he, heq, fun σ s response hcall hresponse => ?_⟩
  have hreply := encodable_toolCallResponse hv hresponse
  refine ⟨(makeToolCallResponse id response).render, _, ?_,
    hparse _ written_toolCallResponse hreply, conveys_toolCallResponse⟩
  rw [heq]
  apply Run.run_tryCatch_of_ok
  rw [perform, Run.run_bind_of_ok hcall, Json.dump_of_encodable hreply]
  simp

theorem askAgrees (hparse : Json.Undoes parser.parse) (hid : id ≠ unknownId) (hv : Valid id)
    (hp : Valid prompt)
    (h : request.Valid) : AskAgrees parser service host model id prompt request := by
  have he := encodable_askRequest hv hp h
  have heq := handleRequest_render service host model hparse written_askRequest he
    (@decode_askRequest id prompt request hid)
  have hsame : requestIdOrUnknown (makeAskRequest id prompt request) = id :=
    requestIdOrUnknown_ofPairs rfl
  rw [hsame] at heq
  exact ⟨_, Json.dump_of_encodable he, heq⟩

/-- Client and daemon agree on every tool call and on every question. -/
theorem client_agrees (hparse : Json.Undoes parser.parse) (hid : id ≠ unknownId) (hv : Valid id)
    (hp : Valid prompt) (h : request.Valid) : CallAgrees parser service host model id request ∧
      AskAgrees parser service host model id prompt request :=
  ⟨callAgrees service host model hparse hid hv h, askAgrees service host model hparse hid hv hp h⟩

/-- The reader as the parser of the daemon and the client. -/
def jsonParser : Parser := ⟨Json.parse, fun _ _ => Json.encodable_of_parse⟩

theorem parse_toolCallRequest (hv : Valid id) (h : request.Valid) :
    jsonParser.parse (makeToolCallRequest id request).render =
      .ok (makeToolCallRequest id request) :=
  Json.undoes_parse _ written_toolCallRequest (encodable_toolCallRequest hv h)

theorem client_agrees_info :
    CallAgrees jsonParser infoService stillHost (constantModel []) (ascii "7") Session.infoRequest ∧
      AskAgrees jsonParser infoService stillHost (constantModel []) (ascii "7")
        (ascii "why?") Session.infoRequest :=
  client_agrees infoService stillHost (constantModel []) Json.undoes_parse (by decide)
    (by decide) (by decide) ⟨by decide, by decide, by decide⟩

end Agreement

end Kasli.Kaslid
