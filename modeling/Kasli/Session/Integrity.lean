import Kasli.Session.Recordable

/-! Calls and asks in a writable log, evaluated. All strings being well-formed UTF-8, a
call returns its response with one event on record exactly when its record is cut
cleanly, and an ask returns the model's answer with three events on record exactly when,
besides, the prompt and the answer are cut cleanly. -/

namespace Kasli.Session

open Core Policy Audit Tools Utf8

/-- The details of the failure of a model are recorded as this text. -/
def errorText : Exn → Bytes
  | .std what => what
  | .other => unknownModelError

/-- The failure of a model can be recorded. -/
def ErrorClean : Exn → Prop
  | .std what => Valid (boundAuditString what)
  | .other => True

section

variable {service : SessionService} {host : Host} (model : ModelProvider)
variable {actor prompt : Bytes} {request : ToolRequest} {response : ToolResponse} {σ ex : History}
variable (hw : host.Writable) (hactor : Valid actor) (hrequest : request.Valid)
  (hresponse : response.Valid)

include hw hactor hrequest hresponse

/-! ### Calls -/

theorem callTool_evaluated (hr : (service.respond request).run σ = (ex, .ok response)) :
    (CallClean request response ∧ ∃ call, call.type = ascii "tool.call" ∧
      (service.callTool host request actor).run σ =
        (ex ++ [.issued, .appended call], .ok response)) ∨
    (¬ CallClean request response ∧ ∃ what, IsAscii what ∧
      (service.callTool host request actor).run σ = (ex ++ [.issued], .error (.std what))) := by
  unfold SessionService.callTool
  rw [Run.run_bind_of_ok hr]
  have hiff := recordable_toolCall hactor hrequest hresponse service.policy
  rcases record_evaluated service.audit host actor (ascii "tool.call")
    (boundAuditString request.toolName)
    (toolAuditDetails request (service.policy.decide request) response) hw
    (fun _ => isAscii_of_toolAuditDetails_error)
    (σ ++ ex) with ⟨h, call, ht, hc⟩ | ⟨h, what, ha, hc⟩
  · refine .inl ⟨hiff.mp h, call, ht, ?_⟩
    rw [Run.run_bind_of_ok hc]
    simp
  · refine .inr ⟨fun hclean => h (hiff.mpr hclean), what, ha, ?_⟩
    rw [Run.run_bind_of_error hc]

variable (hclean : CallClean request response) (hprompt : Valid prompt)

include hclean hprompt

/-! ### The model -/

theorem modelError_evaluated (hcut : CutsClean prompt maxAuditStringBytes)
    (error : Exn) (σ : History) : (ErrorClean error ∧ ∃ s, (service.modelError host ⟨prompt,
      response.evidence⟩ request actor error).run σ =
      (s, .ok { ok := false, answer := [], error := errorText error })) ∨
    (¬ ErrorClean error ∧ ∃ s what, IsAscii what ∧
      (service.modelError host ⟨prompt, response.evidence⟩ request actor error).run σ =
        (s, .error (.std what))) := by
  have hrec := recordable_modelError hactor hrequest hresponse hprompt hclean hcut
  cases error with
  | std what =>
    rcases record_evaluated service.audit host actor (ascii "model.error") (boundAuditString prompt)
      (modelErrorDetails prompt request (boundAuditString what) response.evidence) hw
      (fun _ => isAscii_of_refs_error) σ with ⟨h, event, -, hc⟩ | ⟨h, what', ha, hc⟩
    · exact .inl ⟨(hrec _).mp h, _, Run.run_bind_of_ok hc⟩
    · exact .inr ⟨fun hv => h ((hrec _).mpr hv), _, what', ha, Run.run_bind_of_error hc⟩
  | other =>
    rcases record_evaluated service.audit host actor (ascii "model.error") (boundAuditString prompt)
      (modelErrorDetails prompt request unknownModelError response.evidence) hw
      (fun _ => isAscii_of_refs_error) σ with ⟨-, event, -, hc⟩ | ⟨h, -⟩
    · exact .inl ⟨trivial, _, Run.run_bind_of_ok hc⟩
    · exact absurd ((hrec _).mpr (by decide)) h

omit hresponse hprompt in
/-- The try block, for each outcome of the model. -/
theorem complete_evaluated (question : ModelRequest) (σ : History) :
    (∃ answer reply, model.complete (σ ++ [.asked question]) question = .ok answer ∧
      Valid (boundAuditString answer) ∧ reply.type = ascii "model.response" ∧
      (service.complete host model question request actor).run σ =
        ([.asked question, .issued, .appended reply], .ok { ok := true, answer, error := [] })) ∨
    (∃ answer what s, model.complete (σ ++ [.asked question]) question = .ok answer ∧
      ¬ Valid (boundAuditString answer) ∧ IsAscii what ∧
      (service.complete host model question request actor).run σ = (s, .error (.std what))) ∨
    ∃ error s, model.complete (σ ++ [.asked question]) question = .error error ∧
      (service.complete host model question request actor).run σ = (s, .error error) := by
  unfold SessionService.complete
  have hask := run_ask model question σ
  cases hm : model.complete (σ ++ [.asked question]) question with
  | error error =>
    rw [hm] at hask
    exact .inr (.inr ⟨error, _, rfl, Run.run_bind_of_error hask⟩)
  | ok answer =>
    rw [hm] at hask
    rw [Run.run_bind_of_ok hask]
    have hrec := recordable_modelResponse hactor hrequest hclean answer
    rcases record_evaluated service.audit host actor (ascii "model.response")
      (ascii "model response received")
        (.ok (answerDetails request answer)) hw (fun _ h => by cases h)
      (σ ++ [.asked question]) with ⟨h, reply, ht, hc⟩ | ⟨h, what, ha, hc⟩
    · rw [Run.run_bind_of_ok hc]
      exact .inl ⟨answer, reply, rfl, hrec.mp h, ht, rfl⟩
    · rw [Run.run_bind_of_error hc]
      exact .inr (.inl ⟨answer, what, _, rfl, fun hv => h (hrec.mpr hv), ha, rfl⟩)

end

/-! ### Asks -/

section

variable {service : SessionService} {host : Host} (model : ModelProvider)
variable {actor prompt : Bytes} {request : ToolRequest} {response : ToolResponse} {σ ex : History}

/-- An ask whose call or prompt is not cut cleanly throws an ASCII message. -/
theorem ask_of_not_clean (hw : host.Writable) (hactor : Valid actor) (hrequest : request.Valid)
    (hresponse : response.Valid) (hprompt : Valid prompt)
    (hr : (service.respond request).run σ = (ex, .ok response))
    (h : ¬ (CallClean request response ∧ CutsClean prompt maxAuditStringBytes)) :
    ∃ s what, IsAscii what ∧
      (service.askWithTool host prompt request model actor).run σ = (s, .error (.std what)) := by
  unfold SessionService.askWithTool
  rcases callTool_evaluated hw hactor hrequest hresponse hr
    with ⟨hclean, call, -, hc⟩ | ⟨-, what, ha, hc⟩
  swap
  · exact ⟨_, what, ha, Run.run_bind_of_error hc⟩
  have hcut : ¬ CutsClean prompt maxAuditStringBytes := fun hcut => h ⟨hclean, hcut⟩
  rw [Run.run_bind_of_ok hc]
  by_cases hstatus : response.status = .ok
  · simp only [ne_eq, hstatus, not_true_eq_false, if_false]
    have hrec := recordable_modelRequest hactor hrequest hresponse hprompt hclean
    obtain ⟨what, ha, he⟩ := record_of_not_recordable service.audit host actor
      (ascii "model.request")
      (boundAuditString prompt) (modelContextDetails prompt request response.evidence)
      (fun hv => hcut (hrec.mp hv)) (fun _ => isAscii_of_refs_error)
      (σ ++ (ex ++ [.issued, .appended call]))
    rw [Run.run_bind_of_error he]
    exact ⟨_, what, ha, rfl⟩
  · simp only [ne_eq, hstatus, not_false_eq_true, if_true]
    have hrec := recordable_modelSkipped hactor hrequest hresponse hprompt hclean
    obtain ⟨what, ha, he⟩ := record_of_not_recordable service.audit host actor
      (ascii "model.skipped") (boundAuditString prompt) (skippedDetails prompt request response)
      (fun hv => hcut (hrec.mp hv)) (fun _ => isAscii_of_refs_error)
      (σ ++ (ex ++ [.issued, .appended call]))
    rw [Run.run_bind_of_error he]
    exact ⟨_, what, ha, rfl⟩

section

variable (hw : host.Writable) (hactor : Valid actor) (hrequest : request.Valid)
  (hresponse : response.Valid) (hprompt : Valid prompt)
  (hr : (service.respond request).run σ = (ex, .ok response))
  (hclean : CallClean request response) (hcut : CutsClean prompt maxAuditStringBytes)

include hw hactor hrequest hresponse hprompt hr hclean hcut

theorem ask_of_skipped (hstatus : response.status ≠ .ok) :
    ∃ s, (service.askWithTool host prompt request model actor).run σ = (s, .ok
      { ok := false, answer := [],
        error := ascii "tool call did not succeed: " ++ response.message }) := by
  unfold SessionService.askWithTool
  rcases callTool_evaluated hw hactor hrequest hresponse hr with ⟨-, call, -, hc⟩ | ⟨h, -⟩
  swap
  · exact absurd hclean h
  rw [Run.run_bind_of_ok hc]
  simp only [ne_eq, hstatus, not_false_eq_true, if_true]
  obtain ⟨d, hd, he⟩ := (recordable_modelSkipped hactor hrequest hresponse hprompt hclean).mpr hcut
  obtain ⟨event, -, hrec⟩ := record_of_recordable service.audit host actor (ascii "model.skipped")
    (boundAuditString prompt) (skippedDetails prompt request response) hw hd he
    (σ ++ (ex ++ [.issued, .appended call]))
  rw [Run.run_bind_of_ok hrec]
  exact ⟨_, rfl⟩

/-- When the tool succeeded the try block is reached, with two events on record. -/
theorem ask_eq_complete (hstatus : response.status = .ok) :
    ∃ call ask, call.type = ascii "tool.call" ∧ ask.type = ascii "model.request" ∧
      (service.askWithTool host prompt request model actor).run σ =
        (ex ++ [.issued, .appended call, .issued, .appended ask] ++
            ((tryCatch (service.complete host model ⟨prompt, response.evidence⟩ request actor)
              (service.modelError host ⟨prompt, response.evidence⟩ request actor)).run
              (σ ++ (ex ++ [.issued, .appended call, .issued, .appended ask]))).1,
          ((tryCatch (service.complete host model ⟨prompt, response.evidence⟩ request actor)
              (service.modelError host ⟨prompt, response.evidence⟩ request actor)).run
              (σ ++ (ex ++ [.issued, .appended call, .issued, .appended ask]))).2) := by
  unfold SessionService.askWithTool
  rcases callTool_evaluated hw hactor hrequest hresponse hr with ⟨-, call, hcall, hc⟩ | ⟨h, -⟩
  swap
  · exact absurd hclean h
  rw [Run.run_bind_of_ok hc]
  simp only [ne_eq, hstatus, not_true_eq_false, if_false]
  obtain ⟨d, hd, he⟩ := (recordable_modelRequest hactor hrequest hresponse hprompt hclean).mpr hcut
  obtain ⟨ask, hask, hrec⟩ := record_of_recordable service.audit host actor (ascii "model.request")
    (boundAuditString prompt) (modelContextDetails prompt request response.evidence) hw hd he
    (σ ++ (ex ++ [.issued, .appended call]))
  rw [Run.run_bind_of_ok hrec]
  refine ⟨call, ask, hcall, congrArg Content.type hask, ?_⟩
  simp only [List.append_assoc, List.cons_append, List.nil_append]

/-- An answer whose preview is well formed is returned. -/
theorem ask_of_answer (hstatus : response.status = .ok) {answer : Bytes}
    (hmodel : ∀ τ, model.complete τ ⟨prompt, response.evidence⟩ = .ok answer)
    (hv : Valid (boundAuditString answer)) :
    ∃ call ask reply, call.type = ascii "tool.call" ∧ ask.type = ascii "model.request" ∧
      reply.type = ascii "model.response" ∧
      (service.askWithTool host prompt request model actor).run σ =
        (ex ++ [.issued, .appended call, .issued, .appended ask] ++
          [.asked ⟨prompt, response.evidence⟩, .issued, .appended reply],
        .ok { ok := true, answer, error := [] }) := by
  obtain ⟨call, ask, hcall, hask, heq⟩ :=
    ask_eq_complete model hw hactor hrequest hresponse hprompt hr hclean hcut hstatus
  rw [heq]
  rcases complete_evaluated model hw hactor hrequest hclean ⟨prompt, response.evidence⟩
    (σ ++ (ex ++ [.issued, .appended call, .issued, .appended ask]))
    with ⟨answer', reply, hm, -, ht, hc⟩ | ⟨answer', what, s, hm, hn, -, -⟩ | ⟨error, s, hm, -⟩
  · obtain rfl := Except.ok.inj ((hmodel _).symm.trans hm)
    rw [Run.run_tryCatch_of_ok hc]
    exact ⟨call, ask, reply, hcall, hask, ht, rfl⟩
  · obtain rfl := Except.ok.inj ((hmodel _).symm.trans hm)
    exact absurd hv hn
  · cases (hmodel _).symm.trans hm

/-- An answer that cannot be recorded is reported as a failure of the model. -/
theorem ask_of_unclean_answer (hstatus : response.status = .ok) {answer : Bytes}
    (hmodel : ∀ τ, model.complete τ ⟨prompt, response.evidence⟩ = .ok answer)
    (hn : ¬ Valid (boundAuditString answer)) :
    ∃ s what, IsAscii what ∧ (service.askWithTool host prompt request model actor).run σ =
      (s, .ok { ok := false, answer := [], error := what }) := by
  obtain ⟨call, ask, hcall, hask, heq⟩ :=
    ask_eq_complete model hw hactor hrequest hresponse hprompt hr hclean hcut hstatus
  rw [heq]
  rcases complete_evaluated model hw hactor hrequest hclean ⟨prompt, response.evidence⟩
    (σ ++ (ex ++ [.issued, .appended call, .issued, .appended ask]))
    with ⟨answer', reply, hm, hv, -, -⟩ | ⟨answer', what, s, hm, -, ha, hc⟩ | ⟨error, s, hm, -⟩
  · obtain rfl := Except.ok.inj ((hmodel _).symm.trans hm)
    exact absurd hv hn
  · rw [Run.run_tryCatch_of_error hc]
    rcases modelError_evaluated hw hactor hrequest hresponse hclean hprompt hcut (.std what)
      (σ ++ (ex ++ [.issued, .appended call, .issued, .appended ask]) ++ s) with ⟨-,
        s', hs⟩ | ⟨hne, -⟩
    · rw [hs]
      exact ⟨_, what, ha, rfl⟩
    · exact absurd (valid_boundAuditString_of_isAscii ha) hne
  · cases (hmodel _).symm.trans hm

/-- A failure of the model is recorded and returned when its text can be recorded. -/
theorem ask_of_error (hstatus : response.status = .ok) {error : Exn}
    (hmodel : ∀ τ, model.complete τ ⟨prompt, response.evidence⟩ = .error error) :
    (ErrorClean error ∧ ∃ s, (service.askWithTool host prompt request model actor).run σ =
      (s, .ok { ok := false, answer := [], error := errorText error })) ∨
    (¬ ErrorClean error ∧ ∃ s what, IsAscii what ∧
      (service.askWithTool host prompt request model actor).run σ = (s, .error (.std what))) := by
  obtain ⟨call, ask, hcall, hask, heq⟩ :=
    ask_eq_complete model hw hactor hrequest hresponse hprompt hr hclean hcut hstatus
  rw [heq]
  rcases complete_evaluated model hw hactor hrequest hclean ⟨prompt, response.evidence⟩
    (σ ++ (ex ++ [.issued, .appended call, .issued, .appended ask]))
    with ⟨answer', reply, hm, hv, -, -⟩ | ⟨answer', what, s, hm, -, ha, hc⟩ | ⟨error', s, hm, hc⟩
  · cases (hmodel _).symm.trans hm
  · cases (hmodel _).symm.trans hm
  · obtain rfl := Except.error.inj ((hmodel _).symm.trans hm)
    rw [Run.run_tryCatch_of_error hc]
    rcases modelError_evaluated hw hactor hrequest hresponse hclean hprompt hcut error
      (σ ++ (ex ++ [.issued, .appended call, .issued, .appended ask]) ++ s)
      with ⟨he, s', hs⟩ | ⟨hne, s', what, ha, hs⟩
    · rw [hs]
      exact .inl ⟨he, _, rfl⟩
    · rw [hs]
      exact .inr ⟨hne, _, what, ha, rfl⟩

end

/-! ### Integrity -/

variable {model}

/-- The call returns `response` after appending exactly one event, a `tool.call`. -/
def CallAnswered (service : SessionService) (host : Host) (request : ToolRequest) (actor : Bytes)
    (σ : History) (response : ToolResponse) : Prop :=
  ∃ s, (service.callTool host request actor).run σ = (s, .ok response) ∧
    (events s).map AuditEvent.type = [ascii "tool.call"]

/-- The ask returns `answer` as it is, after appending the events of a call, a request and a
response. -/
def AskAnswered (service : SessionService) (host : Host) (model : ModelProvider) (prompt : Bytes)
    (request : ToolRequest) (actor : Bytes) (σ : History) (answer : Bytes) : Prop :=
  ∃ s, (service.askWithTool host prompt request model actor).run σ =
      (s, .ok { ok := true, answer, error := [] }) ∧
    (events s).map AuditEvent.type = [ascii "tool.call", ascii "model.request",
      ascii "model.response"]

theorem events_respond (hr : (service.respond request).run σ = (ex, .ok response)) :
    events ex = [] := by
  obtain ⟨s, r, hr', hs⟩ := respond_ok service request σ
  obtain rfl := (Prod.mk.inj (hr.symm.trans hr')).1
  exact events_of_executions hs

theorem callAnswered_iff (hw : host.Writable) (hactor : Valid actor) (hrequest : request.Valid)
    (hresponse : response.Valid) (hr : (service.respond request).run σ = (ex, .ok response)) :
    CallAnswered service host request actor σ response ↔ CallClean request response := by
  rcases callTool_evaluated hw hactor hrequest hresponse hr
    with ⟨h, call, ht, hc⟩ | ⟨h, what, -, hc⟩
  · refine ⟨fun _ => h, fun _ => ⟨_, hc, ?_⟩⟩
    simp [events_respond hr, ht]
  · refine ⟨?_, fun hclean => absurd hclean h⟩
    rintro ⟨s, hs, -⟩
    rw [hc] at hs
    cases hs

theorem askAnswered_iff (hw : host.Writable) (hactor : Valid actor) (hrequest : request.Valid)
    (hresponse : response.Valid) (hprompt : Valid prompt) {answer : Bytes} (hanswer : Valid answer)
    (hr : (service.respond request).run σ = (ex, .ok response)) (hstatus : response.status = .ok)
    (hmodel : ∀ τ, model.complete τ ⟨prompt, response.evidence⟩ = .ok answer) :
    AskAnswered service host model prompt request actor σ answer ↔
      CallClean request response ∧ CutsClean prompt maxAuditStringBytes ∧
        CutsClean answer maxAuditStringBytes := by
  rw [← valid_boundAuditString hanswer]
  by_cases h : CallClean request response ∧ CutsClean prompt maxAuditStringBytes
  swap
  · obtain ⟨s, what, -, hs⟩ := ask_of_not_clean model hw hactor hrequest hresponse hprompt hr h
    refine ⟨?_, fun hc => absurd ⟨hc.1, hc.2.1⟩ h⟩
    rintro ⟨s', hs', -⟩
    rw [hs] at hs'
    cases hs'
  obtain ⟨hclean, hcut⟩ := h
  by_cases hv : Valid (boundAuditString answer)
  · obtain ⟨call, ask, reply, hc, ha, hp, hs⟩ :=
      ask_of_answer model hw hactor hrequest hresponse hprompt hr hclean hcut hstatus hmodel hv
    refine ⟨fun _ => ⟨hclean, hcut, hv⟩, fun _ => ⟨_, hs, ?_⟩⟩
    simp [events_respond hr, hc, ha, hp]
  · obtain ⟨s, what, -, hs⟩ :=
      ask_of_unclean_answer model hw hactor hrequest hresponse hprompt hr hclean hcut
      hstatus hmodel hv
    refine ⟨?_, fun hc => absurd hc.2.2 hv⟩
    rintro ⟨s', hs', -⟩
    rw [hs] at hs'
    have hr := Except.ok.inj (Prod.mk.inj hs').2
    cases congrArg AskResult.ok hr

/-- In a writable log, with all strings well-formed UTF-8, a call returns its response and an
ask its answer, on record, exactly when no string of the records is cut inside a character. -/
theorem audit_integrity_iff (hw : host.Writable) (hactor : Valid actor) (hrequest : request.Valid)
    (hresponse : response.Valid) (hprompt : Valid prompt) {answer : Bytes} (hanswer : Valid answer)
    (hr : (service.respond request).run σ = (ex, .ok response))
    (hmodel : ∀ τ, model.complete τ ⟨prompt, response.evidence⟩ = .ok answer) :
    (CallAnswered service host request actor σ response ↔ CallClean request response) ∧
    (response.status = .ok → (AskAnswered service host model prompt request actor σ answer ↔
      CallClean request response ∧ CutsClean prompt maxAuditStringBytes ∧
        CutsClean answer maxAuditStringBytes)) :=
  ⟨callAnswered_iff hw hactor hrequest hresponse hr, fun hstatus =>
    askAnswered_iff hw hactor hrequest hresponse hprompt hanswer hr hstatus hmodel⟩

end

/-! ### An answer that is lost -/

def infoRequest : ToolRequest :=
  { id := ascii "r1", toolName := ascii "system.info", risk := .readOnly, params := .empty }

def infoResponse : ToolResponse :=
  { requestId := ascii "r1", status := .ok, message := ascii "ok", evidence := [] }

def infoService : SessionService := singleService (constantTool (ascii "system.info") infoResponse)

theorem respond_info (σ : History) : (infoService.respond infoRequest).run σ =
    ([.executed (ascii "system.info") infoRequest], .ok infoResponse) :=
  respond_constantTool infoResponse infoRequest rfl σ

def constantModel (answer : Bytes) : ModelProvider := ⟨fun _ _ => .ok answer⟩

theorem infoRequest_valid : infoRequest.Valid := ⟨by decide, by decide, by decide⟩

theorem infoResponse_valid : infoResponse.Valid := ⟨by decide, by decide, by simp [infoResponse]⟩

theorem audit_integrity_fine :
    (CallAnswered infoService stillHost infoRequest (ascii "cli") [] infoResponse ↔
      CallClean infoRequest infoResponse) ∧
    (infoResponse.status = .ok →
      (AskAnswered infoService stillHost (constantModel (ascii "fine")) (ascii "how?") infoRequest
        (ascii "cli") [] (ascii "fine") ↔
      CallClean infoRequest infoResponse ∧ CutsClean (ascii "how?") maxAuditStringBytes ∧
        CutsClean (ascii "fine") maxAuditStringBytes)) :=
  audit_integrity_iff (fun _ _ => rfl) (by decide) infoRequest_valid infoResponse_valid (by decide)
    (by decide) (respond_info []) (fun _ => rfl)

/-- `n` letters, a character of two bytes, and `m` letters. -/
def accentAt (n m : ℕ) : Bytes := List.replicate n (chr 'a') ++ 0xC3 :: 0xA9 ::
    List.replicate m (chr 'a')

theorem accentAt_valid (n m : ℕ) : Valid (accentAt n m) := by
  have hletters : ∀ n, Valid (List.replicate n (chr 'a')) := fun n =>
    valid_of_isAscii fun b hb => (List.eq_of_mem_replicate hb) ▸ by decide
  exact valid_append (hletters n) (valid_append (s := [0xC3, 0xA9]) (by decide) (hletters m))

theorem notMem_accentAt {b : UInt8} (n m : ℕ) (hb : b ∉ [chr 'a', 0xC3, 0xA9]) :
    b ∉ accentAt n m := by
  simp only [List.mem_cons, List.not_mem_nil, or_false, not_or] at hb
  simp [accentAt, List.mem_replicate, hb]

theorem length_accentAt (n m : ℕ) : (accentAt n m).length = n + 2 + m := by
  simp only [accentAt, List.length_append, List.length_cons, List.length_replicate]
  omega

theorem accentAt_not_cleanAt (n m : ℕ) : ¬ CleanAt (accentAt n m) (n + 1) := by
  have hbyte : (accentAt n m)[n + 1]? = some 0xA9 := by
    rw [accentAt, List.getElem?_append_right (by simp)]
    simp
  exact fun h => absurd (h 0xA9 hbyte) (by decide)

/-- A bound that falls between the two bytes cuts the character. -/
theorem accentAt_not_clean {n m maxBytes : ℕ} (hcut : maxBytes - marker.length = n + 1)
    (hlong : maxBytes < n + 2 + m) : ¬ CutsClean (accentAt n m) maxBytes := by
  have hself : redactLikelySecret (accentAt n m) = accentAt n m :=
    redactLikelySecret_eq_self (notMem_accentAt n m (by decide)) (notMem_accentAt n m (by decide))
  intro h
  rw [CutsClean, hself, length_accentAt, hcut] at h
  exact accentAt_not_cleanAt n m (h hlong)

/-- A model that gives this answer is reported as failed. -/
theorem audit_integrity_fails :
    ¬ ∀ (service : SessionService) (host : Host) (model : ModelProvider) (prompt : Bytes)
      (request : ToolRequest) (actor : Bytes) (σ ex : History) (response : ToolResponse)
        (answer : Bytes),
      host.Writable → Valid actor → request.Valid → response.Valid → Valid prompt → Valid answer →
      (service.respond request).run σ = (ex, .ok response) →
      (∀ τ, model.complete τ ⟨prompt, response.evidence⟩ = .ok answer) →
      CallAnswered service host request actor σ response ∧
        (response.status = .ok → AskAnswered service host model prompt request actor σ answer) := by
  intro h
  have hask := (h infoService stillHost (constantModel (accentAt 2033 20)) (ascii "how?")
    infoRequest (ascii "cli") [] _ infoResponse (accentAt 2033 20) (fun _ _ => rfl)
    (by decide) infoRequest_valid infoResponse_valid
    (by decide) (accentAt_valid 2033 20) (respond_info []) (fun _ => rfl)).2 rfl
  have hclean := (askAnswered_iff (fun _ _ => rfl) (by decide) infoRequest_valid infoResponse_valid
    (by decide) (accentAt_valid 2033 20) (respond_info []) rfl (fun _ => rfl)).mp hask
  exact accentAt_not_clean (by decide) (by decide) hclean.2.2

end Kasli.Session
