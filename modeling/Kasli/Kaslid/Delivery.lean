import Kasli.Ipc.Framing
import Kasli.Json.Size
import Kasli.Kaslid.Agreement
import Kasli.Kaslid.Disclosure

/-! Whether a reply is delivered. No reply has a newline, and its length is counted here from what it is
made of; it is delivered when the count is within the bound on lines. The caps on evidence and on
answers leave the strings that the caller chose, which the reply repeats. -/

namespace Kasli.Kaslid

open Core Session Json Ipc

/-! ### The parts of a reply -/

/-- What a reply is made of, besides the id of the request. -/
inductive Reply
  | listed (tools : List Bytes)
  | called (response : ToolResponse)
  | answered (answer : Bytes)
  | failed (error : Bytes)

def Reply.toJson (id : Bytes) : Reply → Json
  | .listed tools => toolsListResponse id tools
  | .called response => makeToolCallResponse id response
  | .answered answer => makeAskResponse id true answer []
  | .failed error => makeErrorResponse id error

/-- The strings that have a cap of their own. -/
def Reply.capped : Reply → List Bytes
  | .called response => response.evidence.map fun e => e.body
  | .answered answer => [answer]
  | _ => []

/-- The length of a record's text, its body apart. -/
def evidenceFrame (e : Evidence) : ℕ :=
  51 + quotedSize e.id + quotedSize e.source + quotedSize e.summary + quotedSize e.timestamp

def responseFrame (response : ToolResponse) : ℕ :=
  48 + arraySize (response.evidence.map evidenceFrame) + quotedSize response.message +
    quotedSize response.requestId + quotedSize response.status.toString

/-- The length of a reply, the capped strings apart. -/
def Reply.frameSize (id : Bytes) : Reply → ℕ
  | .listed tools => 26 + quotedSize id + arraySize (tools.map quotedSize)
  | .called response => (if response.status = .ok then 29 else 30) + quotedSize id +
      responseFrame response
  | .answered _ => 29 + quotedSize id
  | .failed error => 27 + quotedSize id + quotedSize error

def Reply.size (id : Bytes) (reply : Reply) : ℕ :=
  reply.frameSize id + (reply.capped.map escapedSize).sum

theorem length_render_bool (b : Bool) :
    (Json.bool b).render.length = if b = true then 4 else 5 := by
  cases b
  · rfl
  · rfl

theorem length_render_string (s : Bytes) :
    (Json.string s).render.length = quotedSize s := length_quote s

theorem length_render_evidence (e : Evidence) :
    e.toJson.render.length = evidenceFrame e + escapedSize e.body := by
  have hobject : e.toJson = .object [(ascii "body", .string e.body), (ascii "id", .string e.id),
    (ascii "source", .string e.source), (ascii "summary", .string e.summary),
    (ascii "timestamp", .string e.timestamp)] := rfl
  have hkeys : [ascii "body", ascii "id", ascii "source", ascii "summary",
    ascii "timestamp"].map quotedSize = [6, 4, 8, 9, 11] := by decide
  simp only [List.map_cons, List.map_nil, List.cons.injEq, and_true] at hkeys
  rw [hobject, length_render_object (List.cons_ne_nil _ _)]
  simp only [List.map_cons, List.map_nil, List.sum_cons, List.sum_nil, length_render_string,
    hkeys, evidenceFrame]
  rw [quotedSize]
  omega

theorem length_render_response (response : ToolResponse) : response.toJson.render.length =
    responseFrame response + (response.evidence.map fun e => escapedSize e.body).sum := by
  have hobject : response.toJson =
    .object [(ascii "evidence", .array (response.evidence.map Evidence.toJson)),
    (ascii "message", .string response.message), (ascii "request_id", .string response.requestId),
    (ascii "status", .string response.status.toString)] := rfl
  have hkeys : [ascii "evidence", ascii "message", ascii "request_id",
    ascii "status"].map quotedSize = [10, 9, 12, 8] := by decide
  simp only [List.map_cons, List.map_nil, List.cons.injEq, and_true] at hkeys
  have harray : (response.evidence.map fun e => evidenceFrame e + escapedSize e.body).sum =
      (response.evidence.map evidenceFrame).sum +
        (response.evidence.map fun e => escapedSize e.body).sum :=
    List.sum_map_add
  rw [hobject, length_render_object (List.cons_ne_nil _ _)]
  simp only [List.map_cons, List.map_nil, List.sum_cons, List.sum_nil, length_render_string,
    length_render_array, List.map_map, Function.comp_def, length_render_evidence, hkeys,
    responseFrame, arraySize, harray, List.length_map]
  omega

/-- The length of a reply is its size. -/
theorem length_render_reply (id : Bytes) (reply : Reply) :
    (reply.toJson id).render.length = reply.size id := by
  have hkeys : [ascii "answer", ascii "error", ascii "id", ascii "ok", ascii "response",
    ascii "tools"].map quotedSize = [8, 7, 4, 4, 10, 7] := by decide
  simp only [List.map_cons, List.map_nil, List.cons.injEq, and_true] at hkeys
  cases reply with
  | listed tools =>
    have hobject : Reply.toJson id (.listed tools) =
      .object [(ascii "id", .string id), (ascii "ok", .bool true),
      (ascii "tools", .array (tools.map .string))] := rfl
    have hnames : (fun j => j.render.length) ∘ Json.string = quotedSize :=
      funext length_render_string
    rw [hobject, length_render_object (List.cons_ne_nil _ _)]
    simp only [List.map_cons, List.map_nil, List.sum_cons, List.sum_nil, length_render_string,
      length_render_bool, length_render_array, List.map_map, hnames, hkeys, Reply.size,
      Reply.frameSize, Reply.capped, if_true]
    omega
  | called response =>
    have hobject : Reply.toJson id (.called response) = .object [(ascii "id", .string id),
      (ascii "ok", .bool (response.status = .ok)), (ascii "response", response.toJson)] := rfl
    rw [hobject, length_render_object (List.cons_ne_nil _ _)]
    simp only [List.map_cons, List.map_nil, List.sum_cons, List.sum_nil, length_render_string,
      length_render_bool, length_render_response, List.map_map, Function.comp_def, hkeys,
      Reply.size, Reply.frameSize, Reply.capped, decide_eq_true_eq]
    split_ifs
    · omega
    · omega
  | answered answer =>
    have hobject : Reply.toJson id (.answered answer) = .object [(ascii "answer", .string answer),
      (ascii "id", .string id), (ascii "ok", .bool true)] := rfl
    rw [hobject, length_render_object (List.cons_ne_nil _ _)]
    simp only [List.map_cons, List.map_nil, List.sum_cons, List.sum_nil, length_render_string,
      length_render_bool, hkeys, Reply.size, Reply.frameSize, Reply.capped, if_true]
    rw [quotedSize]
    omega
  | failed error =>
    have hobject : Reply.toJson id (.failed error) = .object [(ascii "error", .string error),
      (ascii "id", .string id), (ascii "ok", .bool false)] := rfl
    rw [hobject, length_render_object (List.cons_ne_nil _ _)]
    simp only [List.map_cons, List.map_nil, List.sum_cons, List.sum_nil, length_render_string,
      length_render_bool, hkeys, Reply.size, Reply.frameSize, Reply.capped,
      Bool.false_eq_true, if_false]
    omega

/-! ### The reply to a request -/

section

variable (parser : Parser) (service : SessionService) (host : Host) (model : ModelProvider)

/-- What a command carried out under the id after the history comes to, when there is a reply. -/
inductive RepliesWith (id : Bytes) (σ : History) : Command → Reply → Prop
  | list : RepliesWith id σ .list (.listed service.listTools)
  | call {request : ToolRequest} {s : History} {response : ToolResponse}
    (h : (service.callTool host request (ascii "cli")).run σ = (s, .ok response)) :
    RepliesWith id σ (.call request) (.called response)
  | answer {prompt : Bytes} {request : ToolRequest} {s : History} {result : AskResult}
    (h : (service.askWithTool host prompt request model (ascii "cli")).run σ = (s, .ok result))
    (hok : result.ok = true) : RepliesWith id σ (.ask prompt request) (.answered result.answer)
  | refusal {prompt : Bytes} {request : ToolRequest} {s : History} {result : AskResult}
    (h : (service.askWithTool host prompt request model (ascii "cli")).run σ = (s, .ok result))
    (hok : result.ok = false) : RepliesWith id σ (.ask prompt request) (.failed result.error)
  | other : RepliesWith id σ .other (.failed (ascii "unknown method"))
  | thrown {command : Command} {s : History} {what : Bytes}
    (h : (perform service host model id command).run σ = (s, .error (.std what))) :
    RepliesWith id σ command (.failed what)

theorem dump_ok {j : Json} {σ s : History} {reply : Bytes}
    (h : (ofExcept j.dump).run σ = (s, .ok reply)) : reply = j.render := by
  rcases run_dump j σ with hd | ⟨what, hd⟩
  · rw [hd] at h
    exact (Except.ok.inj (Prod.mk.inj h).2).symm
  · rw [hd] at h
    cases h

/-- A command that is carried out replies with what it comes to. -/
theorem perform_reply {id : Bytes} {command : Command} {σ s : History} {reply : Bytes}
    (h : (perform service host model id command).run σ = (s, .ok reply)) :
    ∃ r, RepliesWith service host model id σ command r ∧ reply = (r.toJson id).render := by
  cases command with
  | list => exact ⟨_, .list, dump_ok h⟩
  | call request =>
    rcases Run.bind_cases h with ⟨e, -, he⟩ | ⟨s₁, response, s₂, hcall, hdump, -⟩
    · cases he
    · exact ⟨_, .call hcall, dump_ok hdump⟩
  | ask prompt request =>
    rcases Run.bind_cases h with ⟨e, -, he⟩ | ⟨s₁, result, s₂, hask, hdump, -⟩
    · cases he
    · have hreply := dump_ok hdump
      cases hok : result.ok with
      | true =>
        rw [hok] at hreply
        exact ⟨_, .answer hask hok, hreply⟩
      | false =>
        rw [hok] at hreply
        exact ⟨_, .refusal hask hok, hreply⟩
  | other =>
    rcases Run.bind_cases h with ⟨e, -, he⟩ | ⟨s₁, _, s₂, -, hdump, -⟩
    · cases he
    · exact ⟨_, .other, dump_ok hdump⟩

theorem protocolError_failed {audit : Audit.AuditLog} {id what : Bytes}
    {σ s : History} {reply : Bytes}
    (h : (protocolError audit host id (.std what)).run σ = (s, .ok reply)) :
    reply = ((Reply.failed what).toJson id).render := by
  rcases Run.bind_cases h with ⟨e, -, he⟩ | ⟨s₁, _, s₂, -, hdump, -⟩
  · cases he
  · exact dump_ok hdump

variable {parser service host model}

/-- The reply to a request that decodes. -/
theorem handleRequest_reply {line : Bytes} {json : Json} {command : Command}
    (hp : parser.parse line = .ok json)
    (hd : decode json = .ok command) {σ s : History} {reply : Bytes}
    (h : (handleRequest parser service host model line).run σ = (s, .ok reply)) :
    ∃ r, RepliesWith service host model (requestIdOrUnknown json) σ command r ∧
      reply = (r.toJson (requestIdOrUnknown json)).render := by
  simp only [handleRequest, hp, dispatch_eq, hd, ofExcept_ok, Run.pure_bind] at h
  rcases Run.tryCatch_cases h with ⟨_, hr, hreply⟩ | ⟨s₁, error, s₂, hr, hc, -⟩
  · obtain rfl := Except.ok.inj hreply
    exact perform_reply service host model hr
  · cases error with
    | std what => exact ⟨_, .thrown hr, protocolError_failed host hc⟩
    | other => cases hc

/-! ### Delivery -/

/-- Writing the reply does not throw when no call of `send` fails. -/
def Deliverable (reply : Bytes) : Prop :=
  ∀ sends : List SendResult, (∀ r ∈ sends, r.Proceeds) →
    ∀ what, (writeLine sends reply).2 ≠ .threw what

theorem deliverable_iff {reply : Bytes} (hnot : chr '\n' ∉ reply) :
    Deliverable reply ↔ reply.length ≤ maxUnixSocketLineBytes := by
  constructor
  · intro h
    by_contra hlong
    apply h [] (by simp) (ascii "unix socket line is too large")
    rw [writeLine, if_pos (by omega)]
  · intro hlen sends hproceeds what
    rw [writeLine, if_neg (by omega), if_neg hnot, writeAll_of_proceeds hproceeds]
    dsimp only
    split_ifs
    · intro h
      cases h
    · intro h
      cases h

end

/-! ### A reply that is not delivered -/

def upResponse : ToolResponse :=
  { infoResponse with message := ascii "the system has been up for a week" }

def upService : SessionService := singleService (constantTool (ascii "system.info") upResponse)

def infoCallLine (id : Bytes) : Bytes := (makeToolCallRequest id Session.infoRequest).render

section

variable {id : Bytes} (hid : id ≠ unknownId) (hv : Utf8.Valid id)

include hv in
theorem parse_infoCallLine :
    jsonParser.parse (infoCallLine id) = .ok (makeToolCallRequest id Session.infoRequest) :=
  parse_toolCallRequest hv infoRequest_valid

theorem upResponse_valid : upResponse.Valid :=
  ⟨by decide, by decide, by simp [upResponse, infoResponse]⟩

include hid hv in
/-- A call that is recorded is replied to with its response. -/
theorem handleRequest_callLine {service : SessionService} {model : ModelProvider} {host : Host}
    (hw : host.Writable) {request : ToolRequest} {response : ToolResponse} {ex : History}
    (hrequest : request.Valid) (hresponse : response.Valid) (hclean : CallClean request response)
    (hresponds : (service.respond request).run [] = (ex, .ok response)) :
    ∃ call : AuditEvent, call.type = ascii "tool.call" ∧
      (handleRequest jsonParser service host model (makeToolCallRequest id request).render).run [] =
        (ex ++ [.issued, .appended call], .ok ((Reply.called response).toJson id).render) := by
  have hsame : requestIdOrUnknown (makeToolCallRequest id request) = id :=
    requestIdOrUnknown_ofPairs rfl
  have hactor : Utf8.Valid (ascii "cli") := by decide
  rcases callTool_evaluated hw hactor hrequest hresponse hresponds with
    ⟨-, call, htype, hcall⟩ | ⟨hnot, -⟩
  · refine ⟨call, htype, ?_⟩
    rw [handleRequest_render _ _ _ undoes_parse written_toolCallRequest
      (encodable_toolCallRequest hv hrequest) (decode_toolCallRequest hid)]
    apply Run.run_tryCatch_of_ok
    rw [perform, Run.run_bind_of_ok hcall, hsame,
      dump_of_encodable (encodable_toolCallResponse hv hresponse), ofExcept_ok, Run.run_pure,
      List.append_nil]
    rfl
  · exact absurd hclean hnot

include hid hv in
/-- The tool is executed, the call is recorded, and the reply repeats the id. -/
theorem handleRequest_infoCallLine : ∃ call : AuditEvent, call.type = ascii "tool.call" ∧
    (handleRequest jsonParser upService stillHost (constantModel []) (infoCallLine id)).run [] =
      ([.executed (ascii "system.info") Session.infoRequest, .issued, .appended call],
        .ok ((Reply.called upResponse).toJson id).render) := by
  have hascii : ∀ value, IsAscii value → CutsClean value maxAuditStringBytes := fun value h =>
    cutsClean_of_isAscii h _
  have hclean : CallClean Session.infoRequest upResponse :=
    ⟨hascii _ (by decide), hascii _ (by decide), by simp [Session.infoRequest, OrderedMap.empty],
      cutsClean_of_isAscii (by decide +kernel) _, hascii _ (by decide),
      ⟨by simp [upResponse, infoResponse], cutsClean_of_isAscii (by decide +kernel) _⟩⟩
  exact handleRequest_callLine hid hv (fun _ _ => rfl) infoRequest_valid upResponse_valid hclean
    (respond_constantTool upResponse Session.infoRequest rfl [])

theorem length_infoCallLine (id : Bytes) : (infoCallLine id).length = 106 + escapedSize id := by
  have hobject : makeToolCallRequest id Session.infoRequest = .object [(ascii "id", .string id),
    (ascii "method", .string (ascii "tool.call")), (ascii "tool", Session.infoRequest.toJson)] :=
      rfl
  have hkeys : [ascii "id", ascii "method", ascii "tool", ascii "tool.call"].map quotedSize =
      [4, 8, 6, 11] := by
    decide
  have hrequest : Session.infoRequest.toJson.render.length = 68 := by decide
  simp only [List.map_cons, List.map_nil, List.cons.injEq, and_true] at hkeys
  rw [infoCallLine, hobject, length_render_object (List.cons_ne_nil _ _)]
  simp only [List.map_cons, List.map_nil, List.sum_cons, List.sum_nil, length_render_string,
    hkeys, hrequest]
  rw [quotedSize]
  omega

theorem size_upReply (id : Bytes) : (Reply.called upResponse).size id = 124 + escapedSize id := by
  have hframe : (Reply.called upResponse).frameSize id = 29 + quotedSize id +
    responseFrame upResponse := rfl
  have hresponse : responseFrame upResponse = 93 := by decide
  have hcapped : ((Reply.called upResponse).capped.map escapedSize).sum = 0 := by decide
  rw [Reply.size, hframe, hresponse, hcapped, quotedSize]
  omega

end

/-- A line of the greatest length, all of whose request but its id is small. -/
def longId : Bytes := List.replicate (maxUnixSocketLineBytes - 106) (chr 'a')

/-- The tool runs and is recorded, and then the reply is too long for a line. -/
theorem reply_undelivered : ¬ ∀ (parser : Parser) (service : SessionService) (host : Host)
    (model : ModelProvider) (line reply : Bytes) (json : Json) (command : Command) (σ s : History),
    line.length ≤ maxUnixSocketLineBytes → parser.parse line = .ok json →
      decode json = .ok command →
    command ≠ .other →
    (∀ tool ∈ service.registry.tools, ∀ request τ t response, (tool.call request).run τ =
      (t, .ok response) → ∀ e ∈ response.evidence, e.body.length ≤ 64 * 1024) →
    (∀ τ question answer, model.complete τ question = .ok answer → answer.length ≤ 64 * 1024) →
    (handleRequest parser service host model line).run σ = (s, .ok reply) →
    chr '\n' ∉ reply ∧ reply.length ≤ maxUnixSocketLineBytes ∧ Deliverable reply := by
  intro h
  have hsize : escapedSize longId = maxUnixSocketLineBytes - 106 := by
    rw [longId, escapedSize_replicate]
    rfl
  have hid : longId ≠ unknownId := fun heq => by
    have hlen := congrArg List.length heq
    rw [longId, List.length_replicate] at hlen
    exact absurd hlen (by decide)
  have hv : Utf8.Valid longId := Utf8.valid_of_isAscii fun b hb => by
    rw [List.eq_of_mem_replicate hb]
    decide
  have hbodies : ∀ tool ∈ upService.registry.tools, ∀ request τ t response,
      (tool.call request).run τ = (t, .ok response) → ∀ e ∈ response.evidence,
        e.body.length ≤ 64 * 1024 := by
    intro tool htool request τ t response hrun e he
    obtain rfl := List.mem_singleton.mp htool
    obtain ⟨-, hresponse⟩ := Prod.mk.inj hrun
    obtain rfl : upResponse = response := Except.ok.inj hresponse
    cases he
  obtain ⟨call, -, hrun⟩ := handleRequest_infoCallLine hid hv
  have hlen := (h jsonParser upService stillHost (constantModel []) (infoCallLine longId) _ _
    (.call Session.infoRequest) [] _ (by rw [length_infoCallLine, hsize]; decide)
    (parse_infoCallLine hv) (decode_toolCallRequest hid) nofun hbodies (fun _ _ answer hanswer => by
      obtain rfl : [] = answer := Except.ok.inj hanswer
      decide) hrun).2.1
  rw [length_render_reply, size_upReply, hsize] at hlen
  exact absurd hlen (by decide)

end Kasli.Kaslid
