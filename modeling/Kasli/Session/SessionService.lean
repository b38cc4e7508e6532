import Kasli.Session.AuditText
import Kasli.Tools.ToolRegistry

/-! The session service (`session/session_service.cpp`). A tool call is decided, made and
recorded; its response is returned only once the record is written. An ask makes a tool
call, records what the model is about to be asked, asks it, and records the answer; what
goes wrong between asking and recording is recorded as a model error. -/

namespace Kasli.Session

open Core Policy Audit Tools

/-- A model, which may answer differently after every history. -/
structure ModelProvider where
  complete : History → ModelRequest → Except Exn Bytes

def ModelProvider.ask (model : ModelProvider) (request : ModelRequest) : Act Bytes := do
  Run.emit (.asked request)
  Run.ask fun σ => model.complete σ request

/-- A model that behaves as `outcome` says, whatever happened before. -/
def steadyModel (outcome : ModelRequest → Except Exn Bytes) : ModelProvider := ⟨fun _ => outcome⟩

structure AskResult where
  ok : Bool
  answer : Bytes
  error : Bytes
  deriving DecidableEq

structure SessionService where
  registry : ToolRegistry
  policy : PolicyBroker
  audit : AuditLog

def SessionService.listTools (service : SessionService) : List Bytes := service.registry.names

def deniedResponse (request : ToolRequest) (message : Bytes) : ToolResponse :=
  { requestId := request.id, status := .denied, message, evidence := [] }

/-- The two catch clauses around a tool's call. -/
def failedResponse (request : ToolRequest) : Exn → ToolResponse
  | .std what => { requestId := request.id, status := .error, message := what, evidence := [] }
  | .other =>
    { requestId := request.id, status := .error,
      message := ascii "tool call failed with unknown exception", evidence := [] }

/-- The first half of `call_tool`: the response that will be recorded. -/
def SessionService.respond (service : SessionService) (request : ToolRequest) : Act ToolResponse :=
  let decision := service.policy.decide request
  if !decision.allowed then
    pure (deniedResponse request decision.reason)
  else
    match service.registry.find request.toolName with
    | none => pure (deniedResponse request (ascii "tool is not registered"))
    | some tool => tryCatch (tool.call request) fun error => pure (failedResponse request error)

def SessionService.callTool (service : SessionService) (host : Host) (request : ToolRequest)
    (actor : Bytes) : Act ToolResponse := do
  let response ← service.respond request
  service.audit.record host actor (ascii "tool.call") (boundAuditString request.toolName)
    (toolAuditDetails request (service.policy.decide request) response)
  return response

def skippedDetails (prompt : Bytes) (request : ToolRequest) (response : ToolResponse) :
    Except Bytes (OrderedMap Bytes Bytes) := do
  let evidenceRefs ← boundJson (evidenceRefsJson response.evidence)
  return .ofList
    [(ascii "request_id", boundAuditString request.id),
      (ascii "prompt", boundAuditString prompt),
      (ascii "tool_status", response.status.toString),
      (ascii "reason", boundAuditString response.message),
      (ascii "evidence_count", decimal response.evidence.length),
      (ascii "evidence_refs", evidenceRefs)]

def answerDetails (request : ToolRequest) (answer : Bytes) : OrderedMap Bytes Bytes :=
  .ofList
    [(ascii "request_id", boundAuditString request.id),
      (ascii "response_status", ascii "ok"),
      (ascii "response_message", ascii "model response received"),
      (ascii "response_bytes", decimal answer.length),
      (ascii "response_preview", boundAuditString answer)]

def modelErrorDetails (prompt : Bytes) (request : ToolRequest) (error : Bytes)
    (evidence : List Evidence) : Except Bytes (OrderedMap Bytes Bytes) := do
  let evidenceRefs ← boundJson (evidenceRefsJson evidence)
  return .ofList
    [(ascii "request_id", boundAuditString request.id),
      (ascii "prompt", boundAuditString prompt),
      (ascii "error", error),
      (ascii "evidence_count", decimal evidence.length),
      (ascii "evidence_refs", evidenceRefs)]

def unknownModelError : Bytes := ascii "model failed with unknown exception"

/-- The try block of `ask_with_tool`: the model is asked and its answer recorded. -/
def SessionService.complete (service : SessionService) (host : Host) (model : ModelProvider)
    (question : ModelRequest) (request : ToolRequest) (actor : Bytes) : Act AskResult := do
  let answer ← model.ask question
  service.audit.record host actor (ascii "model.response") (ascii "model response received")
    (.ok (answerDetails request answer))
  return { ok := true, answer, error := [] }

/-- The two catch clauses of `ask_with_tool`. -/
def SessionService.modelError (service : SessionService) (host : Host) (question : ModelRequest)
    (request : ToolRequest) (actor : Bytes) : Exn → Act AskResult
  | .std what => do
    service.audit.record host actor (ascii "model.error") (boundAuditString question.prompt)
      (modelErrorDetails question.prompt request (boundAuditString what) question.evidence)
    return { ok := false, answer := [], error := what }
  | .other => do
    service.audit.record host actor (ascii "model.error") (boundAuditString question.prompt)
      (modelErrorDetails question.prompt request unknownModelError question.evidence)
    return { ok := false, answer := [], error := unknownModelError }

def SessionService.askWithTool (service : SessionService) (host : Host) (prompt : Bytes)
    (request : ToolRequest) (model : ModelProvider) (actor : Bytes) : Act AskResult := do
  let toolResponse ← service.callTool host request actor
  if toolResponse.status ≠ .ok then
    service.audit.record host actor (ascii "model.skipped") (boundAuditString prompt)
      (skippedDetails prompt request toolResponse)
    return { ok := false, answer := [],
             error := ascii "tool call did not succeed: " ++ toolResponse.message }
  else
    service.audit.record host actor (ascii "model.request") (boundAuditString prompt)
      (modelContextDetails prompt request toolResponse.evidence)
    let question : ModelRequest := { prompt, evidence := toolResponse.evidence }
    tryCatch (service.complete host model question request actor)
      (service.modelError host question request actor)

section

variable (service : SessionService) (host : Host) (model : ModelProvider)
variable (prompt : Bytes) (request : ToolRequest) (actor : Bytes)

/-! ### Responding -/

/-- What `call_tool` makes of the outcome of a tool's call. -/
def settle (request : ToolRequest) : Except Exn ToolResponse → ToolResponse
  | .ok response => response
  | .error error => failedResponse request error

theorem respond_of_denied (h : (service.policy.decide request).allowed = false) :
    service.respond request =
      pure (deniedResponse request (service.policy.decide request).reason) := by
  simp [SessionService.respond, h]

theorem respond_of_unregistered (h : (service.policy.decide request).allowed = true)
    (hf : service.registry.find request.toolName = none) :
    service.respond request = pure (deniedResponse request (ascii "tool is not registered")) := by
  simp [SessionService.respond, h, hf]

/-- A tool that is allowed and found is called, and nothing it throws gets out. -/
theorem respond_of_found {tool : Tool} (h : (service.policy.decide request).allowed = true)
    (hf : service.registry.find request.toolName = some tool) (σ : History) :
    (service.respond request).run σ =
      (((tool.call request).run σ).1, .ok (settle request ((tool.call request).run σ).2)) := by
  simp only [SessionService.respond, h, hf, Bool.not_true, Bool.false_eq_true, if_false]
  rcases hc : (tool.call request).run σ with ⟨s, error | response⟩
  · rw [Run.run_tryCatch_of_error hc]
    simp [settle]
  · rw [Run.run_tryCatch_of_ok hc]
    rfl

/-- Responding does not throw, and adds executions only. -/
theorem respond_ok (σ : History) :
    ∃ s response, (service.respond request).run σ = (s, .ok response) ∧ ∀ a ∈ s, IsExecution a := by
  rcases hd : (service.policy.decide request).allowed with _ | _
  · exact ⟨[], _, by rw [respond_of_denied service request hd, Run.run_pure], by simp⟩
  · rcases hf : service.registry.find request.toolName with _ | tool
    · exact ⟨[], _, by rw [respond_of_unregistered service request hd hf, Run.run_pure], by simp⟩
    · exact ⟨_, _, respond_of_found service request hd hf σ, only_executes tool request σ⟩

theorem events_of_executions {s : History} (h : ∀ a ∈ s, IsExecution a) : events s = [] := by
  rw [events, List.filterMap_eq_nil_iff]
  intro a ha
  have hx := h a ha
  cases a with
  | executed tool request => rfl
  | _ => cases hx

theorem questions_of_executions {s : History} (h : ∀ a ∈ s, IsExecution a) : questions s = [] := by
  rw [questions, List.filterMap_eq_nil_iff]
  intro a ha
  have hx := h a ha
  cases a with
  | executed tool request => rfl
  | _ => cases hx

/-! ### What a call and an ask can do -/

/-- `event` records the call of `request` with `response`. -/
def IsToolCall (response : ToolResponse) (event : AuditEvent) : Prop :=
  ∃ details, toolAuditDetails request (service.policy.decide request) response = .ok details ∧
    content event = ⟨actor, ascii "tool.call", boundAuditString request.toolName, details⟩

/-- A call returns its response once it is recorded, or throws without a record. -/
theorem callTool_cases {σ s : History} {response : ToolResponse}
    (hr : (service.respond request).run σ = (s, .ok response)) :
    (∃ event, IsToolCall service request actor response event ∧
      (service.callTool host request actor).run σ =
        (s ++ [.issued, .appended event], .ok response)) ∨
    ∃ what, (service.callTool host request actor).run σ = (s ++ [.issued], .error (.std what)) := by
  unfold SessionService.callTool
  rw [Run.run_bind_of_ok hr]
  rcases record_cases service.audit host actor (ascii "tool.call")
    (boundAuditString request.toolName)
    (toolAuditDetails request (service.policy.decide request) response) (σ ++ s)
    with ⟨event, d, hd, hc, h⟩ | ⟨what, h⟩
  · refine .inl ⟨event, ⟨d, hd, hc⟩, ?_⟩
    rw [Run.run_bind_of_ok h]
    simp
  · refine .inr ⟨what, ?_⟩
    rw [Run.run_bind_of_error h]

/-- The model failed, or its answer or failure could not be recorded. -/
def IsFailure (result : Except Exn AskResult) : Prop :=
  (∃ error, result = .ok { ok := false, answer := [], error }) ∨ ∃ what, result = .error (.std what)

/-- What an ask adds to the history after its tool ran with `response`, and how it ends. -/
inductive Asked (response : ToolResponse) : History → Except Exn AskResult → Prop
  /-- The call was not recorded. -/
  | uncalled (what : Bytes) : Asked response [.issued] (.error (.std what))
  | skipped (call skip : AuditEvent) (hcall : IsToolCall service request actor response call)
      (hstatus : response.status ≠ .ok) (error : Bytes) :
      Asked response [.issued, .appended call, .issued, .appended skip]
        (.ok { ok := false, answer := [], error })
  /-- The request to the model, or that it is skipped, was not recorded. -/
  | unasked (call : AuditEvent) (what : Bytes)
      (hcall : IsToolCall service request actor response call) :
      Asked response [.issued, .appended call, .issued] (.error (.std what))
  | answered (call ask reply : AuditEvent) (answer : Bytes)
      (hcall : IsToolCall service request actor response call) (hstatus : response.status = .ok)
      (hask : ask.type = ascii "model.request")
      (hreply : content reply = ⟨actor, ascii "model.response", ascii "model response received",
        answerDetails request answer⟩) :
      Asked response
        [.issued, .appended call, .issued, .appended ask,
          .asked ⟨prompt, response.evidence⟩, .issued,
          .appended reply] (.ok { ok := true, answer, error := [] })
  /-- The model failed or its answer was not recorded; `rest` records that or tries to. -/
  | failed (call ask : AuditEvent) (hcall : IsToolCall service request actor response call)
      (hstatus : response.status = .ok) (hask : ask.type = ascii "model.request") (rest : History)
      (hrest : questions rest = []) (result : Except Exn AskResult) (hresult : IsFailure result) :
      Asked response
        ([.issued, .appended call, .issued, .appended ask, .asked ⟨prompt, response.evidence⟩] ++
          rest) result

/-- A model error is recorded and returned, or its record throws. -/
theorem modelError_cases (question : ModelRequest) (error : Exn) (σ : History) :
    ∃ rest result, (service.modelError host question request actor error).run σ = (rest, result) ∧
      questions rest = [] ∧ IsFailure result := by
  have hrecord : ∀ details message, ∃ rest result,
      (do service.audit.record host actor (ascii "model.error")
            (boundAuditString question.prompt) details
          return { ok := false, answer := [], error := message } : Act AskResult).run σ =
        (rest, result) ∧ questions rest = [] ∧ IsFailure result := by
    intro details message
    rcases record_cases service.audit host actor (ascii "model.error")
      (boundAuditString question.prompt) details σ with ⟨event, d, -, -, h⟩ | ⟨what, h⟩
    · exact ⟨_, _, Run.run_bind_of_ok h, rfl, .inl ⟨message, rfl⟩⟩
    · exact ⟨_, _, Run.run_bind_of_error h, rfl, .inr ⟨what, rfl⟩⟩
  cases error with
  | std what => exact hrecord _ what
  | other => exact hrecord _ unknownModelError

theorem run_ask (question : ModelRequest) (σ : History) :
    (model.ask question).run σ =
      ([.asked question], model.complete (σ ++ [.asked question]) question) := by
  rw [ModelProvider.ask, Run.run_emit_bind]
  rfl

/-- An ask sees the model at one moment only. -/
theorem askWithTool_steady (σ : History) : ∃ τ, σ <+: τ ∧
    (service.askWithTool host prompt request model actor).run σ =
      (service.askWithTool host prompt request (steadyModel (model.complete τ)) actor).run σ := by
  unfold SessionService.askWithTool
  rcases hc : (service.callTool host request actor).run σ with ⟨s, error | response⟩
  · exact ⟨σ, List.prefix_refl σ, by rw [Run.run_bind_of_error hc, Run.run_bind_of_error hc]⟩
  by_cases hstatus : response.status = .ok
  swap
  · refine ⟨σ, List.prefix_refl σ, Run.run_bind_congr rfl fun s' response' h => ?_⟩
    obtain rfl := Except.ok.inj (Prod.mk.inj (hc.symm.trans h)).2
    simp only [ne_eq, hstatus, not_false_eq_true, if_true]
  rcases hq : (service.audit.record host actor (ascii "model.request") (boundAuditString prompt)
    (modelContextDetails prompt request response.evidence)).run (σ ++ s) with ⟨s₂, result⟩
  refine ⟨σ ++ s ++ s₂ ++ [.asked ⟨prompt, response.evidence⟩], by simp [List.append_assoc],
    Run.run_bind_congr rfl fun s' response' h => ?_⟩
  obtain ⟨rfl, hr⟩ := Prod.mk.inj (hc.symm.trans h)
  obtain rfl := Except.ok.inj hr
  simp only [ne_eq, hstatus, not_true_eq_false, if_false]
  refine Run.run_bind_congr rfl fun s₂' u h₂ =>
    Run.run_tryCatch_congr (Run.run_bind_congr ?_ fun _ _ _ => rfl)
  obtain rfl := (Prod.mk.inj (hq.symm.trans h₂)).1
  rw [run_ask, run_ask, steadyModel]

/-- The try block asks the model first; it ends with the answer on record, or throws. -/
theorem complete_cases (question : ModelRequest) (σ : History) :
    (∃ reply answer, content reply =
      ⟨actor, ascii "model.response", ascii "model response received",
        answerDetails request answer⟩ ∧
      (service.complete host model question request actor).run σ =
        ([.asked question, .issued, .appended reply], .ok { ok := true, answer, error := [] })) ∨
    ∃ more error, questions more = [] ∧
      (service.complete host model question request actor).run σ =
        (.asked question :: more, .error error) := by
  unfold SessionService.complete
  have hask := run_ask model question σ
  cases hm : model.complete (σ ++ [.asked question]) question with
  | error error =>
    rw [hm] at hask
    exact .inr ⟨[], error, rfl, Run.run_bind_of_error hask⟩
  | ok answer =>
    rw [hm] at hask
    rw [Run.run_bind_of_ok hask]
    rcases record_cases service.audit host actor (ascii "model.response")
      (ascii "model response received") (.ok (answerDetails request answer))
        (σ ++ [.asked question]) with ⟨reply, d, hd, hc, h⟩ | ⟨what, h⟩
    · obtain rfl := Except.ok.inj hd
      rw [Run.run_bind_of_ok h]
      exact .inl ⟨reply, answer, hc, rfl⟩
    · rw [Run.run_bind_of_error h]
      exact .inr ⟨[.issued], .std what, rfl, rfl⟩

/-- Every ask does one of these. -/
theorem askWithTool_asked {σ s : History} {response : ToolResponse}
    (hr : (service.respond request).run σ = (s, .ok response)) :
    ∃ rest result, (service.askWithTool host prompt request model actor).run σ =
      (s ++ rest, result) ∧ Asked service prompt request actor response rest result := by
  unfold SessionService.askWithTool
  rcases callTool_cases service host request actor hr with ⟨call, hcall, h⟩ | ⟨what, h⟩
  swap
  · exact ⟨_, _, Run.run_bind_of_error h, .uncalled what⟩
  rw [Run.run_bind_of_ok h]
  by_cases hstatus : response.status = .ok
  swap
  · -- the model is skipped
    simp only [ne_eq, hstatus, not_false_eq_true, if_true]
    rcases record_cases service.audit host actor (ascii "model.skipped") (boundAuditString prompt)
      (skippedDetails prompt request response) (σ ++ (s ++ [.issued, .appended call]))
      with ⟨skip, d, -, -, hskip⟩ | ⟨what, hskip⟩
    · rw [Run.run_bind_of_ok hskip, List.append_assoc]
      exact ⟨_, _, rfl, .skipped call skip hcall hstatus _⟩
    · rw [Run.run_bind_of_error hskip, List.append_assoc]
      exact ⟨_, _, rfl, .unasked call what hcall⟩
  simp only [ne_eq, hstatus, not_true_eq_false, if_false]
  rcases record_cases service.audit host actor (ascii "model.request") (boundAuditString prompt)
    (modelContextDetails prompt request response.evidence) (σ ++ (s ++ [.issued, .appended call]))
    with ⟨ask, d, -, hask, hreq⟩ | ⟨what, hreq⟩
  swap
  · rw [Run.run_bind_of_error hreq, List.append_assoc]
    exact ⟨_, _, rfl, .unasked call what hcall⟩
  have htype : ask.type = ascii "model.request" := congrArg Content.type hask
  rw [Run.run_bind_of_ok hreq, List.append_assoc]
  rcases complete_cases service host model request actor ⟨prompt, response.evidence⟩
    (σ ++ (s ++ [.issued, .appended call]) ++ [.issued, .appended ask])
    with ⟨reply, answer, hreply, hc⟩ | ⟨more, error, hmore, hc⟩
  · rw [Run.run_tryCatch_of_ok hc]
    exact ⟨_, _, rfl, .answered call ask reply answer hcall hstatus htype hreply⟩
  · obtain ⟨rest, result, hrest, hquiet, hfail⟩ := modelError_cases service host request actor
      ⟨prompt, response.evidence⟩ error (σ ++ (s ++ [.issued, .appended call]) ++
        [.issued, .appended ask] ++ .asked ⟨prompt, response.evidence⟩ :: more)
    rw [Run.run_tryCatch_of_error hc, hrest]
    refine ⟨_, _, rfl, .failed call ask hcall hstatus htype (more ++ rest) ?_ result hfail⟩
    rw [questions_append, hmore, hquiet, List.append_nil]

end

theorem find?_toolAuditDetails {request : ToolRequest} {decision : PolicyDecision}
    {response : ToolResponse} {details : OrderedMap Bytes Bytes}
    (h : toolAuditDetails request decision response = .ok details) :
    details.find? (ascii "status") = some response.status.toString ∧
      details.find? (ascii "tool_name") = some (boundAuditString request.toolName) := by
  unfold toolAuditDetails at h
  cases hp : boundJson (boundedParamsJson request.params) with
  | error what => rw [hp] at h; cases h
  | ok params =>
    rw [hp] at h
    cases hr : boundJson (evidenceRefsJson response.evidence) with
    | error what => rw [hr] at h; cases h
    | ok refs =>
      rw [hr] at h
      obtain rfl := Except.ok.inj h
      rw [OrderedMap.find?_ofList, OrderedMap.find?_ofList]
      exact ⟨rfl, rfl⟩

section

variable {service : SessionService} {prompt actor : Bytes} {request : ToolRequest}
  {response : ToolResponse}

theorem IsToolCall.type {event : AuditEvent} (h : IsToolCall service request actor response event) :
    event.type = ascii "tool.call" := by
  obtain ⟨d, -, hc⟩ := h
  exact congrArg Content.type hc

theorem IsToolCall.status {event : AuditEvent}
    (h : IsToolCall service request actor response event) :
    event.details.find? (ascii "status") = some response.status.toString := by
  obtain ⟨d, hd, hc⟩ := h
  rw [show event.details = d from congrArg Content.details hc]
  exact (find?_toolAuditDetails hd).1

theorem IsToolCall.toolName {event : AuditEvent}
    (h : IsToolCall service request actor response event) :
    event.details.find? (ascii "tool_name") = some (boundAuditString request.toolName) := by
  obtain ⟨d, hd, hc⟩ := h
  rw [show event.details = d from congrArg Content.details hc]
  exact (find?_toolAuditDetails hd).2

/-- In an ask the model is not asked, or asked once, right after the call and the request are on
record. -/
theorem Asked.position {rest : History} {result : Except Exn AskResult}
    (h : Asked service prompt request actor response rest result) : questions rest = [] ∨
      ∃ call ask more, rest = [.issued, .appended call, .issued, .appended ask] ++
          .asked ⟨prompt, response.evidence⟩ :: more ∧ questions more = [] ∧
        IsToolCall service request actor response call ∧ response.status = .ok ∧
        ask.type = ascii "model.request" := by
  cases h with
  | uncalled what => exact .inl rfl
  | skipped call skip => exact .inl rfl
  | unasked call what => exact .inl rfl
  | answered call ask reply answer hcall hstatus hask hreply =>
    exact .inr ⟨call, ask, [.issued, .appended reply], rfl, rfl, hcall, hstatus, hask⟩
  | failed call ask hcall hstatus hask rest hrest =>
    exact .inr ⟨call, ask, rest, rfl, hrest, hcall, hstatus, hask⟩

end

/-! ### A service of one tool

The services that concrete runs below are about. -/

/-- A host that stands still and writes everything. -/
def stillHost : Host :=
  { ticks := fun _ => 0, utc := fun _ => ⟨2026, 1, 1, 0, 0, 0⟩, file := fun _ _ => .written }

def constantTool (name : Bytes) (response : ToolResponse) : Tool :=
  { name, risk := .readOnly, body := fun _ => pure response, quiet := fun _ => Run.only_pure _ _ }

def singleService (tool : Tool) : SessionService :=
  { registry := ⟨[tool], List.nodup_singleton _⟩
    policy := .ofPolicies [⟨tool.name, tool.risk⟩]
    audit := ⟨ascii "audit.jsonl"⟩ }

theorem respond_constantTool {name : Bytes} (response : ToolResponse) (request : ToolRequest)
    (h : request.toolName = name) (σ : History) :
    ((singleService (constantTool name response)).respond request).run σ =
      ([.executed name request], .ok response) := by
  subst h
  have hfind : (singleService (constantTool request.toolName response)).registry.find
    request.toolName =
      some (constantTool request.toolName response) :=
    ToolRegistry.find_eq_some_iff.mpr ⟨List.mem_singleton_self _, rfl⟩
  have hallowed : ((singleService (constantTool request.toolName response)).policy.decide
    request).allowed
      = true := by
    rw [decide_allowed_iff]
    simp only [singleService, PolicyBroker.ofPolicies, OrderedMap.find?_ofList, List.map_cons,
      OrderedMap.lookup_cons]
    exact if_pos rfl
  rw [respond_of_found _ request hallowed hfind]
  rfl

end Kasli.Session
