import Kasli.Effect.Related
import Kasli.Session.SessionService

/-! The audit log does not depend on evidence bodies. Two runs of the session service are
compared whose tools return the same up to the bodies of their evidence: they leave the
same events behind, ids and timestamps aside. -/

namespace Kasli.Core

/-- Evidence with its body taken out. -/
def Evidence.withoutBody (evidence : Evidence) : Evidence := { evidence with body := [] }

def ToolResponse.withoutBodies (response : ToolResponse) : ToolResponse :=
  { response with evidence := response.evidence.map Evidence.withoutBody }

def ModelRequest.withoutBodies (request : ModelRequest) : ModelRequest :=
  { request with evidence := request.evidence.map Evidence.withoutBody }

/-- An action with the bodies, the event ids and the timestamps of events taken out. -/
def Action.outline : Action → Action
  | .asked request => .asked request.withoutBodies
  | .appended event => .appended { event with id := [], timestamp := [] }
  | action => action

end Kasli.Core

namespace Kasli.Session

open Core Policy Audit Tools Run

/-- The responses are the same up to the bodies of their evidence. -/
def SameButBodies (response response' : ToolResponse) :
    Prop := response.withoutBodies = response'.withoutBodies

/-- Two behaviours of a tool that differ only in the bodies of the evidence. -/
def BehaveAlike (tool tool' : Tool) : Prop :=
  tool.name = tool'.name ∧ tool.risk = tool'.risk ∧
    ∀ request, Related Action.outline SameButBodies (tool.call request) (tool'.call request)

/-- The model gives the same answer, or throws the same exception, at the question of the one
run and at that of the other: `σ` and `σ'` are the histories before the runs, `s` and `s'` what
the runs add. -/
def AnswerAlike (model model' : ModelProvider) (σ σ' s s' : History) : Prop :=
  ∀ t question r t' question' r', s = t ++ .asked question :: r →
    s' = t' ++ .asked question' :: r' → model.complete (σ ++ t ++ [.asked question]) question =
      model'.complete (σ' ++ t' ++ [.asked question']) question'

/-- Writing a record of the same content comes to the same in both runs. -/
def WriteAlike (host host' : Host) : Prop :=
  ∀ σ σ' : History, σ.map Action.outline = σ'.map Action.outline → ∀ event event' : AuditEvent,
    content event = content event' →
    host.file σ (event.toJson.render ++ ascii "\n") =
      host'.file σ' (event'.toJson.render ++ ascii "\n")

/-! ### What is recorded of a response -/

section Texts

variable {response response' : ToolResponse} (h : SameButBodies response response')

theorem evidenceRefsJson_withoutBodies (evidence : List Evidence) :
    evidenceRefsJson (evidence.map Evidence.withoutBody) = evidenceRefsJson evidence := by
  have hmap : ∀ l : List Evidence, (l.map Evidence.withoutBody).map evidenceRef =
      l.map evidenceRef := fun l => by
    rw [List.map_map]
    rfl
  rw [evidenceRefsJson, evidenceRefsJson, evidenceRefs_eq, evidenceRefs_eq, ← List.map_take, hmap,
    List.length_map]

include h

theorem SameButBodies.status : response.status = response'.status :=
  (congrArg ToolResponse.status (id h : response.withoutBodies = response'.withoutBodies) :)

theorem SameButBodies.message : response.message = response'.message :=
  (congrArg ToolResponse.message (id h : response.withoutBodies = response'.withoutBodies) :)

theorem SameButBodies.evidence :
    response.evidence.map Evidence.withoutBody = response'.evidence.map Evidence.withoutBody :=
  congrArg ToolResponse.evidence h

theorem SameButBodies.length : response.evidence.length = response'.evidence.length := by
  simpa using congrArg List.length h.evidence

theorem SameButBodies.evidenceRefsJson :
    evidenceRefsJson response.evidence = evidenceRefsJson response'.evidence := by
  rw [← evidenceRefsJson_withoutBodies, h.evidence, evidenceRefsJson_withoutBodies]

theorem toolAuditDetails_eq (request : ToolRequest) (decision : PolicyDecision) :
    toolAuditDetails request decision response = toolAuditDetails request decision response' := by
  simp only [toolAuditDetails, h.status, h.message, h.length, h.evidenceRefsJson]

theorem skippedDetails_eq (prompt : Bytes) (request : ToolRequest) :
    skippedDetails prompt request response = skippedDetails prompt request response' := by
  simp only [skippedDetails, h.status, h.message, h.length, h.evidenceRefsJson]

theorem modelContextDetails_eq (prompt : Bytes) (request : ToolRequest) :
    modelContextDetails prompt request response.evidence =
      modelContextDetails prompt request response'.evidence := by
  simp only [modelContextDetails, h.length, h.evidenceRefsJson]

theorem modelErrorDetails_eq (prompt : Bytes) (request : ToolRequest) (error : Bytes) :
    modelErrorDetails prompt request error response.evidence =
      modelErrorDetails prompt request error response'.evidence := by
  simp only [modelErrorDetails, h.length, h.evidenceRefsJson]

end Texts

/-! ### Recording -/

section Recording

variable {host host' : Host} (log : AuditLog)

/-- The members of an event in key order. -/
theorem toJson_eq (event : AuditEvent) : event.toJson = .object
    [(ascii "actor", .string event.actor), (ascii "details", stringMapJson event.details),
      (ascii "id", .string event.id), (ascii "summary", .string event.summary),
      (ascii "timestamp", .string event.timestamp), (ascii "type", .string event.type)] := rfl

theorem utf8Fault_of_isAscii {s : Bytes} (h : IsAscii s) : Json.utf8Fault Utf8.start 0 0 s = none :=
  Json.utf8Fault_eq_none.mpr (Utf8.valid_of_isAscii h)

/-- What `dump` says is wrong with an event is wrong with its content. -/
theorem findSome?_stamped {c : Content} {id timestamp : Bytes} (hid : IsAscii id)
    (ht : IsAscii timestamp) :
    (c.stamped id timestamp).toJson.strings.findSome? (Json.utf8Fault Utf8.start 0 0) =
      (c.stamped [] []).toJson.strings.findSome? (Json.utf8Fault Utf8.start 0 0) := by
  have hnil : IsAscii [] := isAscii_nil
  simp only [toJson_eq, Content.stamped, Json.strings, Json.memberStrings, List.findSome?_cons,
    List.findSome?_append, List.cons_append, List.nil_append, utf8Fault_of_isAscii hid,
    utf8Fault_of_isAscii ht, utf8Fault_of_isAscii hnil]

/-- Two events of one content are dumped both, or not for the same reason. -/
theorem dump_stamped_eq_error (c : Content) {id timestamp id' timestamp' what : Bytes}
    (hid : IsAscii id) (ht : IsAscii timestamp) (hid' : IsAscii id') (ht' : IsAscii timestamp')
    (h : (c.stamped id timestamp).toJson.dump = .error what) :
    (c.stamped id' timestamp').toJson.dump = .error what := by
  rw [Json.dump, findSome?_stamped hid ht] at h
  rw [Json.dump, findSome?_stamped hid' ht']
  cases hf : (c.stamped [] []).toJson.strings.findSome? (Json.utf8Fault Utf8.start 0 0) with
  | none =>
    rw [hf] at h
    cases h
  | some what' =>
    rw [hf] at h
    exact h

theorem related_append (hwrite : WriteAlike host host') (c : Content)
    {id timestamp id' timestamp' : Bytes}
    (hid : IsAscii id) (ht : IsAscii timestamp) (hid' : IsAscii id') (ht' : IsAscii timestamp') :
    Related Action.outline (fun _ _ => True) (log.append host (c.stamped id timestamp))
      (log.append host' (c.stamped id' timestamp')) := by
  unfold AuditLog.append
  cases hd : (c.stamped id timestamp).toJson.dump with
  | error what =>
    rw [dump_stamped_eq_error c hid ht hid' ht' hd]
    exact related_throw _
  | ok record =>
    obtain ⟨hencodable, rfl⟩ := Json.dump_eq_ok_iff.mp hd
    rw [Json.dump_of_encodable
      ((encodable_stamped hid' ht').mpr ((encodable_stamped hid ht).mp hencodable))]
    simp only [ofExcept_ok, Run.pure_bind]
    refine Related.bind (R := Eq) (related_ask fun σ σ' hσ => .ok (hwrite σ σ' hσ _ _ rfl)) ?_
    rintro outcome _ rfl
    cases outcome with
    | written => exact related_emit rfl
    | notOpened => exact related_throw _
    | notWritten => exact related_throw _

/-- Recording the same content leaves the same content behind, whatever the clocks say. -/
theorem related_record (hwrite : WriteAlike host host') (actor type summary : Bytes)
    (details : Except Bytes (OrderedMap Bytes Bytes)) :
    Related Action.outline (fun _ _ => True) (log.record host actor type summary details)
      (log.record host' actor type summary details) := by
  intro σ σ' hσ
  obtain ⟨id, timestamp, hid, ht, heq⟩ := record_eq log host actor type summary details σ
  obtain ⟨id', timestamp', hid', ht', heq'⟩ := record_eq log host' actor type summary details σ'
  rw [heq, heq']
  cases details with
  | error what => exact ⟨rfl, .error _⟩
  | ok d =>
    obtain ⟨hadd, hend⟩ := related_append log hwrite ⟨actor, type, summary,
      d⟩ hid ht hid' ht' (σ ++ [.issued])
      (σ' ++ [.issued]) (by rw [List.map_append, List.map_append, hσ])
    exact ⟨by rw [List.map_cons, List.map_cons, hadd], hend⟩

end Recording

/-! ### Calls -/

section Calls

variable {registry registry' : ToolRegistry} {host host' : Host} {model model' : ModelProvider}
variable (policy : PolicyBroker) (log : AuditLog) (request : ToolRequest) (prompt actor : Bytes)

/-- A name finds tools that behave alike, or none. -/
theorem find_alike (h : List.Forall₂ BehaveAlike registry.tools registry'.tools) (name : Bytes) :
    (registry.find name = none ∧ registry'.find name = none) ∨
      ∃ tool tool', registry.find name = some tool ∧ registry'.find name = some tool' ∧
        BehaveAlike tool tool' := by
  simp only [ToolRegistry.find]
  generalize registry.tools = tools at h
  generalize registry'.tools = tools' at h
  induction h with
  | nil => exact .inl ⟨rfl, rfl⟩
  | @cons tool tool' tools tools' htool _ ih =>
    have hname := htool.1
    by_cases hn : tool.name = name
    · refine .inr ⟨tool, tool', ?_, ?_, htool⟩
      · rw [List.find?_cons_of_pos (by simp [hn])]
      · rw [List.find?_cons_of_pos (by simp [← hname, hn])]
    · rw [List.find?_cons_of_neg (by simp [hn]), List.find?_cons_of_neg (by simp [← hname, hn])]
      exact ih

theorem related_respond (h : List.Forall₂ BehaveAlike registry.tools registry'.tools) :
    Related Action.outline SameButBodies
      ((⟨registry, policy, log⟩ : SessionService).respond request)
      ((⟨registry', policy, log⟩ : SessionService).respond request) := by
  by_cases hallowed : (policy.decide request).allowed = true
  · obtain ⟨hnone, hnone'⟩ | ⟨tool, tool', hsome, hsome', -, -, hcall⟩ :=
      find_alike h request.toolName
    · rw [respond_of_unregistered _ request hallowed hnone,
        respond_of_unregistered _ request hallowed hnone']
      exact related_pure rfl
    · simp only [SessionService.respond, hallowed, hsome, hsome', Bool.not_true,
        Bool.false_eq_true, if_false]
      exact (hcall request).tryCatch fun error => related_pure rfl
  · rw [Bool.not_eq_true] at hallowed
    rw [respond_of_denied _ request hallowed, respond_of_denied _ request hallowed]
    exact related_pure rfl

theorem related_callTool (htools : List.Forall₂ BehaveAlike registry.tools registry'.tools)
    (hwrite : WriteAlike host host') :
    Related Action.outline SameButBodies
      ((⟨registry, policy, log⟩ : SessionService).callTool host request actor)
      ((⟨registry', policy, log⟩ : SessionService).callTool host' request actor) := by
  refine (related_respond policy log request htools).bind fun response response' hsame => ?_
  rw [toolAuditDetails_eq hsame]
  exact (related_record log hwrite _ _ _ _).bind fun _ _ _ => related_pure hsame

theorem related_complete (hwrite : WriteAlike host host') (answer : Except Exn Bytes)
    {question question' : ModelRequest}
    (hquestion : question.withoutBodies = question'.withoutBodies) : Related Action.outline Eq
      ((⟨registry, policy, log⟩ : SessionService).complete host (steadyModel fun _ =>
        answer) question request actor)
      ((⟨registry', policy, log⟩ : SessionService).complete host' (steadyModel fun _ =>
        answer) question' request actor) := by
  have hemit : Action.outline (.asked question) = Action.outline (.asked question') := by
    rw [Action.outline, Action.outline, hquestion]
  have hask : Related Action.outline Eq ((steadyModel fun _ => answer).ask question)
      ((steadyModel fun _ => answer).ask question') :=
    (related_emit hemit).bind fun _ _ _ => related_ask fun _ _ _ => ends_refl (fun _ => rfl) _
  refine hask.bind fun answer answer' hanswer => ?_
  rw [hanswer]
  exact (related_record log hwrite _ _ _ _).bind fun _ _ _ => related_pure rfl

theorem related_modelError (hwrite : WriteAlike host host') {response response' : ToolResponse}
    (hsame : SameButBodies response response') (error : Exn) :
    Related Action.outline Eq
      ((⟨registry, policy, log⟩ : SessionService).modelError host ⟨prompt,
        response.evidence⟩ request actor error)
      ((⟨registry', policy, log⟩ : SessionService).modelError host' ⟨prompt,
        response'.evidence⟩ request actor error) := by
  cases error with
  | std what =>
    simp only [SessionService.modelError, modelErrorDetails_eq hsame]
    exact (related_record log hwrite _ _ _ _).bind fun _ _ _ => related_pure rfl
  | other =>
    simp only [SessionService.modelError, modelErrorDetails_eq hsame]
    exact (related_record log hwrite _ _ _ _).bind fun _ _ _ => related_pure rfl

theorem related_askWithTool (htools : List.Forall₂ BehaveAlike registry.tools registry'.tools)
    (hwrite : WriteAlike host host') (answer : Except Exn Bytes) :
    Related Action.outline Eq
      ((⟨registry, policy, log⟩ : SessionService).askWithTool host prompt request
        (steadyModel fun _ => answer) actor)
      ((⟨registry', policy, log⟩ : SessionService).askWithTool host' prompt request
        (steadyModel fun _ => answer) actor) := by
  refine (related_callTool policy log request actor htools hwrite).bind
    fun response response' hsame => ?_
  rw [hsame.status, hsame.message, skippedDetails_eq hsame, modelContextDetails_eq hsame]
  split_ifs
  · exact (related_record log hwrite _ _ _ _).bind fun _ _ _ => related_pure rfl
  · have hquestion : ModelRequest.withoutBodies ⟨prompt, response.evidence⟩ =
        ModelRequest.withoutBodies ⟨prompt, response'.evidence⟩ := by
      rw [ModelRequest.withoutBodies, ModelRequest.withoutBodies, hsame.evidence]
    refine (related_record log hwrite _ _ _ _).bind fun _ _ _ => ?_
    exact (related_complete policy log request actor hwrite answer hquestion).tryCatch
      (related_modelError policy log request prompt actor hwrite hsame)

/-- A question sees the model once, at the end of what it added so far, or not at all. -/
theorem askWithTool_once (service : SessionService) (host : Host)
    (model : ModelProvider) (σ : History) :
    (∀ other, (service.askWithTool host prompt request other actor).run σ =
      (service.askWithTool host prompt request model actor).run σ) ∨
    ∃ t question r, ((service.askWithTool host prompt request model actor).run σ).1 = t ++
      .asked question :: r ∧ ∀ other, other.complete (σ ++ t ++ [.asked question]) question =
          model.complete (σ ++ t ++ [.asked question]) question →
        (service.askWithTool host prompt request other actor).run σ =
          (service.askWithTool host prompt request model actor).run σ := by
  unfold SessionService.askWithTool
  rcases hc : (service.callTool host request actor).run σ with ⟨s, error | response⟩
  · exact .inl fun other => by rw [Run.run_bind_of_error hc, Run.run_bind_of_error hc]
  simp only [Run.run_bind_of_ok hc]
  by_cases hstatus : response.status = .ok
  swap
  · -- the model is skipped
    refine .inl fun other => ?_
    simp only [ne_eq, hstatus, not_false_eq_true, if_true]
  simp only [ne_eq, hstatus, not_true_eq_false, if_false]
  rcases hq : (service.audit.record host actor (ascii "model.request") (boundAuditString prompt)
    (modelContextDetails prompt request response.evidence)).run (σ ++ s) with ⟨s₂, error | u⟩
  · exact .inl fun other => by rw [Run.run_bind_of_error hq, Run.run_bind_of_error hq]
  simp only [Run.run_bind_of_ok hq]
  -- the model is asked after `s` and `s₂`
  obtain ⟨more, hmore⟩ : ∃ more,
    ((tryCatch (service.complete host model ⟨prompt, response.evidence⟩ request actor)
      (service.modelError host ⟨prompt, response.evidence⟩ request actor)).run (σ ++ s ++ s₂)).1 =
      .asked ⟨prompt, response.evidence⟩ :: more := by
    rcases complete_cases service host model request actor ⟨prompt,
      response.evidence⟩ (σ ++ s ++ s₂) with ⟨reply, answer, -, h⟩ | ⟨more, error, -, h⟩
    · exact ⟨_, by rw [Run.run_tryCatch_of_ok h]⟩
    · exact ⟨_, by rw [Run.run_tryCatch_of_error h]; rfl⟩
  refine .inr ⟨s ++ s₂, ⟨prompt, response.evidence⟩,
    more, by rw [hmore, List.append_assoc], fun other hother => ?_⟩
  have hsame : (other.ask ⟨prompt, response.evidence⟩).run (σ ++ s ++ s₂) =
      (model.ask ⟨prompt, response.evidence⟩).run (σ ++ s ++ s₂) := by
    rw [run_ask, run_ask, List.append_assoc σ, hother]
  have hcomplete : (service.complete host other ⟨prompt, response.evidence⟩ request actor).run
    (σ ++ s ++ s₂) =
      (service.complete host model ⟨prompt, response.evidence⟩ request actor).run (σ ++ s ++ s₂) :=
    Run.run_bind_congr hsame fun _ _ _ => rfl
  rw [Run.run_tryCatch_congr hcomplete]

/-- Histories that look the same have the same events on record, ids and timestamps aside. -/
theorem contents_eq {s s' : History} (h : s.map Action.outline = s'.map Action.outline) :
    (events s).map content = (events s').map content := by
  have hview : ∀ s : History, (events (s.map Action.outline)).map content =
      (events s).map content := by
    intro s
    induction s with
    | nil => rfl
    | cons a s ih =>
      cases a with
      | appended event =>
        rw [List.map_cons, Action.outline, events_appended, events_appended, List.map_cons,
          List.map_cons, ih]
        rfl
      | _ => simpa [Action.outline] using ih
  rw [← hview s, h, hview s']

/-- With the same answer in both runs, both can be given one steady model. -/
theorem exists_steady (service service' : SessionService) {σ σ' : History}
    (h : AnswerAlike model model' σ σ'
      ((service.askWithTool host prompt request model actor).run σ).1
      ((service'.askWithTool host' prompt request model' actor).run σ').1) :
    ∃ answer, (service.askWithTool host prompt request (steadyModel fun _ => answer) actor).run σ =
        (service.askWithTool host prompt request model actor).run σ ∧
      (service'.askWithTool host' prompt request (steadyModel fun _ => answer) actor).run σ' =
        (service'.askWithTool host' prompt request model' actor).run σ' := by
  obtain hnever | ⟨t, question, r, hs, honce⟩ :=
    askWithTool_once request prompt actor service host model σ
  · obtain hnever' | ⟨t', question', r', -, honce'⟩ :=
      askWithTool_once request prompt actor service' host' model' σ'
    · exact ⟨.ok [], hnever _, hnever' _⟩
    · exact ⟨_, hnever _, honce' _ rfl⟩
  · obtain hnever' | ⟨t', question', r', hs', honce'⟩ :=
      askWithTool_once request prompt actor service' host' model' σ'
    · exact ⟨_, honce _ rfl, hnever' _⟩
    · exact ⟨_, honce _ rfl, honce' _ (h t question r t' question' r' hs hs')⟩

/-- The events that a tool call and a question leave behind, and what is returned, do not depend
on the bodies of the evidence. -/
theorem audit_independent {service service' : SessionService}
    (hpolicy : service.policy = service'.policy) (haudit : service.audit = service'.audit)
    (htools : List.Forall₂ BehaveAlike service.registry.tools service'.registry.tools)
    (hwrite : WriteAlike host host') {σ σ' : History}
    (hσ : σ.map Action.outline = σ'.map Action.outline) (hmodel : AnswerAlike model model' σ σ'
      ((service.askWithTool host prompt request model actor).run σ).1
      ((service'.askWithTool host' prompt request model' actor).run σ').1) :
    let call := (service.callTool host request actor).run σ
    let call' := (service'.callTool host' request actor).run σ'
    let ask := (service.askWithTool host prompt request model actor).run σ
    let ask' := (service'.askWithTool host' prompt request model' actor).run σ'
    (events call.1).map content = (events call'.1).map content ∧ Ends SameButBodies call.2 call'.2 ∧
      (events ask.1).map content = (events ask'.1).map content ∧ ask.2 = ask'.2 := by
  obtain ⟨answer, hsteady, hsteady'⟩ := exists_steady request prompt actor service service' hmodel
  obtain ⟨registry, policy, log⟩ := service
  obtain ⟨registry', policy', log'⟩ := service'
  obtain rfl : policy = policy' := hpolicy
  obtain rfl : log = log' := haudit
  change List.Forall₂ BehaveAlike registry.tools registry'.tools at htools
  obtain ⟨hcall, hresponse⟩ := related_callTool policy log request actor htools hwrite σ σ' hσ
  obtain ⟨hask, hresult⟩ :=
    related_askWithTool policy log request prompt actor htools hwrite answer σ σ' hσ
  rw [hsteady, hsteady'] at hask hresult
  exact ⟨contents_eq hcall, hresponse, contents_eq hask, hresult.eq⟩

end Calls

/-! ### Two bodies -/

/-- A tool whose one record has the body. -/
def noteService (body : Bytes) : SessionService :=
  singleService (constantTool (ascii "note")
    { requestId := ascii "r1", status := .ok, message := ascii "ok",
      evidence := [{ id := ascii "r1:note", source := ascii "note", summary := ascii "a note", body,
                     timestamp := [] }] })

def noteRequest : ToolRequest :=
  { id := ascii "r1", toolName := ascii "note", risk := .readOnly, params := .empty }

theorem audit_independent_notes :
    (events (((noteService (ascii "x")).askWithTool stillHost (ascii "why?") noteRequest
      (steadyModel fun _ => .ok (ascii "fine")) (ascii "cli")).run []).1).map content =
    (events (((noteService (ascii "y")).askWithTool stillHost (ascii "why?") noteRequest
      (steadyModel fun _ => .ok (ascii "fine")) (ascii "cli")).run []).1).map content :=
  (audit_independent noteRequest (ascii "why?") (ascii "cli")
    (show (noteService (ascii "x")).policy = (noteService (ascii "y")).policy from rfl) rfl
    (.cons ⟨rfl, rfl, fun _ => (related_emit rfl).bind fun _ _ _ => related_pure rfl⟩ .nil)
    (fun _ _ _ _ _ _ => rfl) rfl (fun _ _ _ _ _ _ _ _ => rfl)).2.2.1

end Kasli.Session
