import Kasli.Kaslid.HandleRequest

/-! Records come before disclosure. What the handler adds to the history is looked at
as a whole, whichever appends fail: the model is asked at most once, after the call and
the request to the model are on record, and a reply carries an answer or a response only
when the event about it is on record. -/

namespace Kasli.Kaslid

open Core Audit Session Tools

/-! ### Reading replies -/

/-- Objects with the same text have the same members. -/
theorem lookup_eq_of_render {l l' : List (Bytes × Json)}
    (h : (Json.ofPairs l).render = (Json.ofPairs l').render) (key : Bytes) :
    OrderedMap.lookup key l = OrderedMap.lookup key l' := by
  have hmap : (OrderedMap.ofList l).entries = (OrderedMap.ofList l').entries := by
    simpa [Json.ofPairs] using Json.render_injective h
  rw [← OrderedMap.find?_ofList, ← OrderedMap.find?_ofList, OrderedMap.ext hmap]

theorem status_eq_of_toJson {r r' : ToolResponse} (h : r.toJson = r'.toJson) :
    r.status = r'.status := by
  have hs : some (Json.string r.status.toString) = some (Json.string r'.status.toString) :=
    lookup_eq_of_render (congrArg Json.render h) (ascii "status")
  exact toolStatus_injective (Json.string.inj (Option.some.inj hs))

section

variable {id id' answer error : Bytes} {response : ToolResponse}

/-- A reply with an answer comes from an ask with that answer. -/
theorem answer_of_askResponse {answer' error' : Bytes} {ok : Bool}
    (h : (makeAskResponse id' ok answer' error').render =
      (makeAskResponse id true answer error).render) :
    ok = true ∧ answer' = answer := by
  have ha := lookup_eq_of_render h (ascii "answer")
  cases ok with
  | true => exact ⟨rfl, Json.string.inj (Option.some.inj ha)⟩
  | false => cases (show none = some (Json.string answer) from ha)

theorem errorResponse_ne_askResponse {message : Bytes} :
    (makeErrorResponse id' message).render ≠ (makeAskResponse id true answer error).render :=
      fun h => by
  cases (show none = some (Json.string answer) from lookup_eq_of_render h (ascii "answer"))

theorem listResponse_ne_askResponse {tools : List Bytes} :
    (toolsListResponse id' tools).render ≠ (makeAskResponse id true answer error).render :=
      fun h => by
  cases (show none = some (Json.string answer) from lookup_eq_of_render h (ascii "answer"))

theorem callResponse_ne_askResponse :
    (makeToolCallResponse id' response).render ≠ (makeAskResponse id true answer error).render :=
      fun h => by
  cases (show none = some (Json.string answer) from lookup_eq_of_render h (ascii "answer"))

/-- A reply with a response comes from a call with a response of that status. -/
theorem status_of_callResponse {response' : ToolResponse}
    (h : (makeToolCallResponse id' response').render = (makeToolCallResponse id response).render) :
    response'.status = response.status := by
  have hr : some response'.toJson = some response.toJson := lookup_eq_of_render h (ascii "response")
  exact status_eq_of_toJson (Option.some.inj hr)

theorem errorResponse_ne_callResponse {message : Bytes} :
    (makeErrorResponse id' message).render ≠ (makeToolCallResponse id response).render :=
      fun h => by
  cases (show none = some response.toJson from lookup_eq_of_render h (ascii "response"))

theorem listResponse_ne_callResponse {tools : List Bytes} :
    (toolsListResponse id' tools).render ≠ (makeToolCallResponse id response).render := fun h => by
  cases (show none = some response.toJson from lookup_eq_of_render h (ascii "response"))

theorem askResponse_ne_callResponse {ok : Bool} :
    (makeAskResponse id' ok answer error).render ≠ (makeToolCallResponse id response).render :=
      fun h => by
  have hr := lookup_eq_of_render h (ascii "response")
  cases ok with
  | true => cases (show none = some response.toJson from hr)
  | false => cases (show none = some response.toJson from hr)

end

/-! ### What the handler can do -/

variable (parser : Parser) (service : SessionService) (host : Host) (model : ModelProvider)

/-- Encoding a value: its text, or an ASCII exception. -/
theorem run_dump (j : Json) (σ : History) :
    (ofExcept j.dump).run σ = ([], .ok j.render) ∨
      ∃ what, (ofExcept j.dump).run σ = ([], .error (.std what)) := by
  cases h : j.dump with
  | ok t =>
    obtain ⟨-, rfl⟩ := Json.dump_eq_ok_iff.mp h
    exact .inl rfl
  | error what => exact .inr ⟨what, rfl⟩

/-- A record of the daemon's own: nothing is executed or asked. -/
def IsProtocolError (a : Action) : Prop :=
  a = .issued ∨ ∃ event, a = .appended event ∧ event.type = ascii "protocol.error"

theorem only_auditProtocolError (audit : AuditLog) (id message : Bytes) :
    Run.Only IsProtocolError (auditProtocolError audit host id message) :=
  record_only audit host (ascii "cli") (ascii "protocol.error") _ _ (.inl rfl) fun event _ _ hc =>
    .inr ⟨event, rfl, congrArg Content.type hc⟩

theorem only_dump {p : Action → Prop} (j : Json) : Run.Only p (ofExcept j.dump) := by
  cases j.dump with
  | ok t => exact Run.only_pure p t
  | error what => exact Run.only_throw p _

theorem only_protocolError (audit : AuditLog) (id : Bytes) (error : Exn) :
    Run.Only IsProtocolError (protocolError audit host id error) := by
  cases error with
  | std what => exact (only_auditProtocolError host audit id what).bind fun _ => only_dump _
  | other => exact Run.only_throw _ _

theorem questions_of_protocolError {s : History} (h : ∀ a ∈ s, IsProtocolError a) :
    questions s = [] := by
  rw [questions, List.filterMap_eq_nil_iff]
  intro a ha
  rcases h a ha with rfl | ⟨event, rfl, -⟩
  · rfl
  · rfl

/-- A reply of the catch clause is an error reply. -/
theorem protocolError_reply {audit : AuditLog} {id : Bytes} (error : Exn)
    {σ s : History} {reply : Bytes}
    (h : (protocolError audit host id error).run σ = (s, .ok reply)) :
    ∃ message, reply = (makeErrorResponse id message).render := by
  cases error with
  | other => cases h
  | std what =>
    rcases Run.bind_cases h with ⟨e, -, he⟩ | ⟨s₁, _, s₂, -, h₂, -⟩
    · cases he
    · rcases run_dump (makeErrorResponse id what) (σ ++ s₁) with h | ⟨what', h⟩
      · rw [h] at h₂
        exact ⟨what, (Except.ok.inj (Prod.mk.inj h₂).2).symm⟩
      · rw [h] at h₂
        cases h₂

/-- The line `input` asks for `command`. -/
def Requests (input : Bytes) (command : Command) : Prop :=
  ∃ json, parser.parse input = .ok json ∧ decode json = .ok command

/-- The handler rejects the line, or carries out its command and then, if that throws, reports
it. -/
theorem handleRequest_cases {input : Bytes} {σ s : History} {result : Except Exn Bytes}
    (h : (handleRequest parser service host model input).run σ = (s, result)) :
    (∃ id error, (protocolError service.audit host id error).run σ = (s, result)) ∨
    ∃ command id s₁ outcome, Requests parser input command ∧
      (perform service host model id command).run σ = (s₁, outcome) ∧
      ((s = s₁ ∧ result = outcome ∧ ∃ reply, outcome = .ok reply) ∨
        ∃ error s₂, outcome = .error error ∧ s = s₁ ++ s₂ ∧
          (protocolError service.audit host id error).run (σ ++ s₁) = (s₂, result)) := by
  unfold handleRequest at h
  cases hp : parser.parse input with
  | error what =>
    rw [hp] at h
    exact .inl ⟨_, _, h⟩
  | ok json =>
    simp only [hp, dispatch_eq] at h
    cases hd : decode json with
    | error what =>
      rw [hd, Run.run_tryCatch_of_error (s := []) (e := .std what) rfl] at h
      simp only [List.append_nil, List.nil_append] at h
      exact .inl ⟨requestIdOrUnknown json, .std what, h⟩
    | ok command =>
      rw [hd, ofExcept_ok, Run.pure_bind] at h
      right
      rcases Run.tryCatch_cases h with ⟨reply, hr, rfl⟩ | ⟨s₁, error, s₂, hr, hc, rfl⟩
      · exact ⟨command, _, s, .ok reply, ⟨json, hp, hd⟩, hr, .inl ⟨rfl, rfl, reply, rfl⟩⟩
      · exact ⟨command, _, s₁, .error error, ⟨json, hp, hd⟩, hr, .inr ⟨error, s₂, rfl, rfl, hc⟩⟩

/-! ### One request -/

/-- A call that is performed: its record comes before its reply. -/
theorem perform_call {id : Bytes} {request : ToolRequest} {σ s : History}
    {outcome : Except Exn Bytes}
    (h : (perform service host model id (.call request)).run σ = (s, outcome)) :
    questions s = [] ∧ ∀ reply, outcome = .ok reply → ∃ response call,
      reply = (makeToolCallResponse id response).render ∧
      IsToolCall service request (ascii "cli") response call ∧ call ∈ events s := by
  obtain ⟨ex, response, hr, hex⟩ := respond_ok service request σ
  have hq := questions_of_executions hex
  rcases callTool_cases service host request (ascii "cli") hr with ⟨call, hcall, hc⟩ | ⟨what, hc⟩
  · rw [perform, Run.run_bind_of_ok hc] at h
    rcases run_dump (makeToolCallResponse id response) (σ ++ (ex ++ [.issued, .appended call]))
      with hd | ⟨what, hd⟩
    · rw [hd] at h
      obtain ⟨rfl, rfl⟩ := Prod.mk.inj h
      refine ⟨by simp [hq], fun reply hreply => ⟨response, call, ?_, hcall, by simp⟩⟩
      exact (Except.ok.inj hreply).symm
    · rw [hd] at h
      obtain ⟨rfl, rfl⟩ := Prod.mk.inj h
      exact ⟨by simp [hq], fun reply hreply => by cases hreply⟩
  · rw [perform, Run.run_bind_of_error hc] at h
    obtain ⟨rfl, rfl⟩ := Prod.mk.inj h
    exact ⟨by simp [hq], fun reply hreply => by cases hreply⟩

/-- An ask that is performed: what it adds is the tool's executions and one of the ways of an
ask. -/
theorem perform_ask {id prompt : Bytes} {request : ToolRequest} {σ s : History}
    {outcome : Except Exn Bytes}
    (h : (perform service host model id (.ask prompt request)).run σ = (s, outcome)) :
    ∃ ex response rest result, (service.respond request).run σ = (ex, .ok response) ∧
      (∀ a ∈ ex, IsExecution a) ∧ s = ex ++ rest ∧
      Asked service prompt request (ascii "cli") response rest result ∧
      ∀ reply, outcome = .ok reply → ∃ r : AskResult, result = .ok r ∧
        reply = (makeAskResponse id r.ok r.answer r.error).render := by
  obtain ⟨ex, response, hr, hex⟩ := respond_ok service request σ
  obtain ⟨rest, result, ha, hasked⟩ :=
    askWithTool_asked service host model prompt request (ascii "cli") hr
  cases result with
  | error e =>
    rw [perform, Run.run_bind_of_error ha] at h
    obtain ⟨rfl, rfl⟩ := Prod.mk.inj h
    exact ⟨ex, response, rest, _, hr, hex, rfl, hasked, fun reply hreply => by cases hreply⟩
  | ok r =>
    rw [perform, Run.run_bind_of_ok ha] at h
    rcases run_dump (makeAskResponse id r.ok r.answer r.error)
      (σ ++ (ex ++ rest)) with hd | ⟨what, hd⟩
    · rw [hd] at h
      obtain ⟨rfl, rfl⟩ := Prod.mk.inj h
      refine ⟨ex, response, rest, _, hr, hex, by simp, hasked, fun reply hreply => ⟨r, rfl, ?_⟩⟩
      exact (Except.ok.inj hreply).symm
    · rw [hd] at h
      obtain ⟨rfl, rfl⟩ := Prod.mk.inj h
      exact ⟨ex, response, rest, _, hr, hex, by simp, hasked, fun reply hreply => by cases hreply⟩

theorem perform_list {id : Bytes} {σ s : History} {outcome : Except Exn Bytes}
    (h : (perform service host model id .list).run σ = (s, outcome)) :
    s = [] ∧ ∀ reply, outcome = .ok reply →
      reply = (toolsListResponse id service.listTools).render := by
  rcases run_dump (toolsListResponse id service.listTools) σ with hd | ⟨what, hd⟩
  · rw [perform, hd] at h
    obtain ⟨rfl, rfl⟩ := Prod.mk.inj h
    exact ⟨rfl, fun reply hreply => (Except.ok.inj hreply).symm⟩
  · rw [perform, hd] at h
    obtain ⟨rfl, rfl⟩ := Prod.mk.inj h
    exact ⟨rfl, fun reply hreply => by cases hreply⟩

theorem perform_other {id : Bytes} {σ s : History} {outcome : Except Exn Bytes}
    (h : (perform service host model id .other).run σ = (s, outcome)) :
    questions s = [] ∧ ∀ reply, outcome = .ok reply →
      ∃ message, reply = (makeErrorResponse id message).render := by
  constructor
  · have honly : Run.Only IsProtocolError (perform service host model id .other) :=
      (only_auditProtocolError host service.audit id _).bind fun _ => only_dump _
    exact questions_of_protocolError fun a ha => honly σ a (by rw [h]; exact ha)
  · rintro reply rfl
    exact protocolError_reply host (.std (ascii "unknown method")) h

/-- There is one way to split a history at its only question. -/
theorem split_at_question {A B pre post : History} {q q' : ModelRequest} (hA : questions A = [])
    (hB : questions B = []) (h : A ++ .asked q :: B = pre ++ .asked q' :: post) :
    pre = A ∧ q' = q ∧ post = B := by
  rcases List.append_eq_append_iff.mp h with ⟨m, rfl, hm⟩ | ⟨m, rfl, hm⟩
  · cases m with
    | nil =>
      obtain ⟨hq, rfl⟩ := List.cons.inj hm
      exact ⟨(List.append_nil A), (Action.asked.inj hq).symm, rfl⟩
    | cons a m =>
      obtain ⟨rfl, rfl⟩ := List.cons.inj hm
      simp at hB
  · cases m with
    | nil =>
      obtain ⟨hq, rfl⟩ := List.cons.inj hm
      exact ⟨(List.append_nil pre).symm, Action.asked.inj hq, rfl⟩
    | cons a m =>
      obtain ⟨rfl, rfl⟩ := List.cons.inj hm
      simp at hA

/-! ### Whole runs -/

/-- When the model is asked in the service of `input` after the history `σ`, this is what came
before and after in the same request. -/
structure AskedOnRecord (input : Bytes) (σ pre post : History) (question : ModelRequest)
    (request : ToolRequest) (response : ToolResponse) (call ask : AuditEvent) : Prop where
  requested : Requests parser input (.ask question.prompt request)
  responded : ∃ ex, (service.respond request).run σ = (ex, .ok response)
  evidence : question.evidence = response.evidence
  status : response.status = .ok
  records : events pre = [call, ask]
  call_type : call.type = ascii "tool.call"
  call_status : call.details.find? (ascii "status") = some (ascii "ok")
  ask_type : ask.type = ascii "model.request"
  first : questions pre = []
  last : questions post = []

variable {parser service host model}

/-- The model is not asked in the service of a line, or asked once and on record. -/
theorem question_position {input : Bytes} {σ s : History} {result : Except Exn Bytes}
    (h : (handleRequest parser service host model input).run σ = (s, result)) : questions s = [] ∨
      ∃ question request response call ask A B, s = A ++ .asked question :: B ∧
        AskedOnRecord parser service input σ A B question request response call ask := by
  rcases handleRequest_cases parser service host model h with ⟨id, error, hp⟩ |
    ⟨command, id, s₁, outcome, hreq, hperform, hend⟩
  · exact .inl (questions_of_protocolError fun a ha =>
      only_protocolError host service.audit id error σ a (by rw [hp]; exact ha))
  obtain ⟨s₂, rfl, hs₂⟩ : ∃ s₂, s = s₁ ++ s₂ ∧ questions s₂ = [] := by
    rcases hend with ⟨rfl, -, -⟩ | ⟨error, s₂, -, rfl, hp⟩
    · exact ⟨[], by simp, rfl⟩
    · exact ⟨s₂, rfl, questions_of_protocolError fun a ha =>
        only_protocolError host service.audit id error (σ ++ s₁) a (by rw [hp]; exact ha)⟩
  have hquiet : questions s₁ = [] → questions (s₁ ++ s₂) = [] := fun hq => by
    rw [questions_append, hq, hs₂, List.append_nil]
  cases command with
  | list => exact .inl (hquiet (by rw [(perform_list service host model hperform).1]; rfl))
  | call request => exact .inl (hquiet (perform_call service host model hperform).1)
  | other => exact .inl (hquiet (perform_other service host model hperform).1)
  | ask prompt request =>
    obtain ⟨ex, response, rest, r, hr, hex, rfl, hasked, -⟩ :=
      perform_ask service host model hperform
    rcases hasked.position with hq | ⟨call, ask, more, rfl, hmore, hcall, hstatus, hask⟩
    · exact .inl (hquiet (by rw [questions_append, questions_of_executions hex, hq, List.append_nil]))
    · refine .inr ⟨⟨prompt, response.evidence⟩, request, response, call, ask,
        ex ++ [.issued, .appended call, .issued, .appended ask], more ++ s₂, by simp, ?_⟩
      have hstat := hcall.status
      rw [hstatus] at hstat
      exact
        { requested := hreq
          responded := ⟨ex, hr⟩
          evidence := rfl
          status := hstatus
          records := by simp [events_of_executions hex]
          call_type := hcall.type
          call_status := hstat
          ask_type := hask
          first := by simp [questions_of_executions hex]
          last := by rw [questions_append, hmore, hs₂, List.append_nil] }

/-- A reply with an answer has the answer's event on record. -/
theorem answer_on_record {input : Bytes} {σ s : History} {id answer error : Bytes}
    (h : (handleRequest parser service host model input).run σ =
      (s, .ok (makeAskResponse id true answer error).render)) :
    ∃ prompt request event, Requests parser input (.ask prompt request) ∧ event ∈ events s ∧
      content event = ⟨ascii "cli", ascii "model.response", ascii "model response received",
        answerDetails request answer⟩ := by
  have herror : ∀ {id' σ' s'} {e : Exn}, (protocolError service.audit host id' e).run σ' =
      (s', .ok (makeAskResponse id true answer error).render) → False := fun hp => by
    obtain ⟨message, hm⟩ := protocolError_reply host _ hp
    exact errorResponse_ne_askResponse hm.symm
  rcases handleRequest_cases parser service host model h with ⟨id', e, hp⟩ |
    ⟨command, id', s₁, outcome, hreq, hperform, hend⟩
  · exact (herror hp).elim
  rcases hend with ⟨rfl, rfl, -⟩ | ⟨e, s₂, -, -, hp⟩
  swap
  · exact (herror hp).elim
  cases command with
  | list =>
    exact absurd ((perform_list service host model hperform).2 _ rfl).symm
      listResponse_ne_askResponse
  | call request =>
    obtain ⟨response, call, hreply, -⟩ := (perform_call service host model hperform).2 _ rfl
    exact absurd hreply.symm callResponse_ne_askResponse
  | other =>
    obtain ⟨message, hm⟩ := (perform_other service host model hperform).2 _ rfl
    exact absurd hm.symm errorResponse_ne_askResponse
  | ask prompt request =>
    obtain ⟨ex, response, rest, result, -, -, rfl, hasked, hreply⟩ :=
      perform_ask service host model hperform
    obtain ⟨r, rfl, hr⟩ := hreply _ rfl
    obtain ⟨hok, rfl⟩ := answer_of_askResponse hr.symm
    cases hasked with
    | skipped => cases hok
    | answered call ask reply answer hcall hstatus hask hc =>
      exact ⟨prompt, request, reply, hreq, by simp, hc⟩
    | failed call ask hcall hstatus hask rest hrest result hfail =>
      rcases hfail with ⟨e, he⟩ | ⟨what, he⟩
      · rw [Except.ok.inj he] at hok
        cases hok
      · cases he

/-- A reply with a response has the call's event on record, with the status of the response. -/
theorem response_on_record {input : Bytes} {σ s : History} {id : Bytes} {response : ToolResponse}
    (h : (handleRequest parser service host model input).run σ =
      (s, .ok (makeToolCallResponse id response).render)) :
    ∃ request event, Requests parser input (.call request) ∧ event ∈ events s ∧
      event.type = ascii "tool.call" ∧
      event.details.find? (ascii "status") = some response.status.toString := by
  have herror : ∀ {id' σ' s'} {e : Exn}, (protocolError service.audit host id' e).run σ' =
      (s', .ok (makeToolCallResponse id response).render) → False := fun hp => by
    obtain ⟨message, hm⟩ := protocolError_reply host _ hp
    exact errorResponse_ne_callResponse hm.symm
  rcases handleRequest_cases parser service host model h with ⟨id', e, hp⟩ |
    ⟨command, id', s₁, outcome, hreq, hperform, hend⟩
  · exact (herror hp).elim
  rcases hend with ⟨rfl, rfl, -⟩ | ⟨e, s₂, -, -, hp⟩
  swap
  · exact (herror hp).elim
  cases command with
  | list =>
    exact absurd ((perform_list service host model hperform).2 _ rfl).symm
      listResponse_ne_callResponse
  | call request =>
    obtain ⟨response', call, hreply, hcall, hmem⟩ :=
      (perform_call service host model hperform).2 _ rfl
    have hstat := hcall.status
    rw [status_of_callResponse hreply.symm] at hstat
    exact ⟨request, call, hreq, hmem, hcall.type, hstat⟩
  | other =>
    obtain ⟨message, hm⟩ := (perform_other service host model hperform).2 _ rfl
    exact absurd hm.symm errorResponse_ne_callResponse
  | ask prompt request =>
    obtain ⟨ex, response', rest, result, -, -, -, -, hreply⟩ :=
      perform_ask service host model hperform
    obtain ⟨r, rfl, hr⟩ := hreply _ rfl
    exact absurd hr.symm askResponse_ne_callResponse

variable (parser service host model)

/-- Audit before disclosure: whatever was served before, and whichever appends, tools and models
fail, in the service of `input` the model is asked at most once and only on record, with the
prompt of the request and the evidence of the response; an answer or a response is returned only
when the event about it is on record; and a tool whose status is not ok keeps the model from
being asked. -/
theorem audit_before_disclosure (before : List Bytes) (input : Bytes) :
    let σ := Run.history (handleRequest parser service host model) [] before
    let s := ((handleRequest parser service host model input).run σ).1
    let result := ((handleRequest parser service host model input).run σ).2
    (∀ pre question post, s = pre ++ .asked question :: post → ∃ request response call ask,
      AskedOnRecord parser service input σ pre post question request response call ask) ∧
    (∀ id answer error, result = .ok (makeAskResponse id true answer error).render →
      ∃ prompt request event, Requests parser input (.ask prompt request) ∧ event ∈ events s ∧
        content event = ⟨ascii "cli", ascii "model.response", ascii "model response received",
          answerDetails request answer⟩) ∧
    (∀ id response, result = .ok (makeToolCallResponse id response).render →
      ∃ request event, Requests parser input (.call request) ∧ event ∈ events s ∧
        event.type = ascii "tool.call" ∧
        event.details.find? (ascii "status") = some response.status.toString) ∧
    ∀ prompt request ex response, Requests parser input (.ask prompt request) →
      (service.respond request).run σ = (ex, .ok response) → response.status ≠ .ok →
        questions s = [] := by
  intro σ s result
  have hrun : (handleRequest parser service host model input).run σ = (s, result) := rfl
  refine ⟨?_, ?_, ?_, ?_⟩
  · intro pre question post hs
    rcases question_position hrun
      with hq | ⟨question', request, response, call, ask, A, B, hsplit, hrec⟩
    · rw [hs] at hq
      simp at hq
    · obtain ⟨rfl, rfl, rfl⟩ := split_at_question hrec.first hrec.last (hsplit.symm.trans hs)
      exact ⟨request, response, call, ask, hrec⟩
  · intro id answer error hresult
    exact answer_on_record (hresult ▸ hrun)
  · intro id response hresult
    exact response_on_record (hresult ▸ hrun)
  · intro prompt request ex response hreq hr hstatus
    rcases question_position hrun
      with hq | ⟨question', request', response', call, ask, A, B, hsplit, hrec⟩
    · exact hq
    · obtain ⟨json, hp, hd⟩ := hreq
      obtain ⟨json', hp', hd'⟩ := hrec.requested
      obtain rfl := Except.ok.inj (hp.symm.trans hp')
      obtain ⟨-, rfl⟩ := Command.ask.inj (Except.ok.inj (hd.symm.trans hd'))
      obtain ⟨ex', hr'⟩ := hrec.responded
      obtain rfl := Except.ok.inj (Prod.mk.inj (hr.symm.trans hr')).2
      exact absurd hrec.status hstatus

end Kasli.Kaslid
