import Kasli.Kaslid.HandleRequest
import Kasli.Session.Integrity

/-! Which lines are answered. In a writable log the handler returns a reply unless the
error path itself throws: the text of the error is ill formed, or it or the id is cut
inside a character when it is recorded. The condition is exact. -/

namespace Kasli.Kaslid

open Core Audit Session Tools Utf8

/-! ### What a line decodes to -/

theorem valid_of_fromJson {json : Json} (hj : json.Encodable) {request : ToolRequest}
    (h : ToolRequest.fromJson json = .ok request) : request.Valid := by
  unfold ToolRequest.fromJson at h
  obtain ⟨jid, hjid, h⟩ := bind_eq_ok.mp h
  obtain ⟨id, hid, h⟩ := bind_eq_ok.mp h
  obtain ⟨jname, hjname, h⟩ := bind_eq_ok.mp h
  obtain ⟨name, hname, h⟩ := bind_eq_ok.mp h
  obtain ⟨jrisk, -, h⟩ := bind_eq_ok.mp h
  obtain ⟨srisk, -, h⟩ := bind_eq_ok.mp h
  obtain ⟨risk, -, h⟩ := bind_eq_ok.mp h
  obtain ⟨params, hparams, h⟩ := bind_eq_ok.mp h
  obtain rfl := Except.ok.inj h
  exact ⟨Json.valid_of_getString (Json.encodable_of_at? hj hjid) hid,
    Json.valid_of_getString (Json.encodable_of_at? hj hjname) hname,
    Json.valid_of_valueStringMap hj hparams⟩

theorem valid_whatOf {message : Bytes} (h : Valid message) : Valid (whatOf message) := by
  rw [← List.takeWhile_append_dropWhile (p := (· ≠ 0)) (l := message)] at h
  refine (accepts_split h fun b hb => ?_).1
  have hzero := List.head?_dropWhile_not (· ≠ 0) message
  rw [Option.mem_def.mp hb] at hzero
  simp only [ne_eq, decide_not, Bool.not_eq_eq_eq_not, Bool.not_false, decide_eq_true_eq] at hzero
  exact hzero ▸ by decide

theorem valid_of_riskClass_error {value what : Bytes} (hv : Valid value)
    (h : riskClassFromString value = .error what) : Valid what := by
  unfold riskClassFromString at h
  split_ifs at h
  exact Except.error.inj h ▸ valid_whatOf (valid_append (by decide) hv)

/-- The text of a decoding error is well formed; it may quote the risk class of the request. -/
theorem valid_of_fromJson_error {json : Json} (hj : json.Encodable) {what : Bytes}
    (h : ToolRequest.fromJson json = .error what) : Valid what := by
  have hat : ∀ {key}, IsAscii key → json.at? key = .error what → Valid what := fun hkey h =>
    valid_of_isAscii (Json.isAscii_of_at?_error hkey h)
  have hget : ∀ {j : Json}, j.getString = .error what → Valid what := fun h =>
    valid_of_isAscii (Json.isAscii_of_getString_error h)
  unfold ToolRequest.fromJson at h
  rcases bind_eq_error.mp h with h | ⟨jid, hjid, h⟩
  · exact hat (by decide) h
  rcases bind_eq_error.mp h with h | ⟨id, hid, h⟩
  · exact hget h
  rcases bind_eq_error.mp h with h | ⟨jname, hjname, h⟩
  · exact hat (by decide) h
  rcases bind_eq_error.mp h with h | ⟨name, hname, h⟩
  · exact hget h
  rcases bind_eq_error.mp h with h | ⟨jrisk, hjrisk, h⟩
  · exact hat (by decide) h
  rcases bind_eq_error.mp h with h | ⟨srisk, hsrisk, h⟩
  · exact hget h
  rcases bind_eq_error.mp h with h | ⟨risk, hrisk, h⟩
  · exact valid_of_riskClass_error
      (Json.valid_of_getString (Json.encodable_of_at? hj hjrisk) hsrisk) h
  rcases bind_eq_error.mp h with h | ⟨params, hparams, h⟩
  · exact valid_of_isAscii (Json.isAscii_of_valueStringMap_error h)
  · cases h

theorem valid_requestId {json : Json} (hj : json.Encodable) : Valid (requestIdOrUnknown json) := by
  have hunknown : Valid unknownId := by decide
  unfold requestIdOrUnknown
  split_ifs
  · split
    next id h => exact (Json.encodable_string id).mp (Json.encodable_of_at? hj h)
    next => exact hunknown
  · exact hunknown

/-- The strings of a command are well formed. -/
def Command.Valid : Command → Prop
  | .call request => request.Valid
  | .ask prompt request => Utf8.Valid prompt ∧ request.Valid
  | _ => True

theorem valid_of_decode {json : Json} (hj : json.Encodable) {command : Command}
    (h : decode json = .ok command) : command.Valid := by
  unfold decode at h
  split_ifs at h
  obtain ⟨jmethod, -, h⟩ := bind_eq_ok.mp h
  obtain ⟨method, -, h⟩ := bind_eq_ok.mp h
  split_ifs at h
  · obtain rfl := Except.ok.inj h
    trivial
  · obtain ⟨jtool, hjtool, h⟩ := bind_eq_ok.mp h
    obtain ⟨request, hrequest, h⟩ := bind_eq_ok.mp h
    obtain rfl := Except.ok.inj h
    exact valid_of_fromJson (Json.encodable_of_at? hj hjtool) hrequest
  · obtain ⟨jprompt, hjprompt, h⟩ := bind_eq_ok.mp h
    obtain ⟨prompt, hprompt, h⟩ := bind_eq_ok.mp h
    obtain ⟨jtool, hjtool, h⟩ := bind_eq_ok.mp h
    obtain ⟨request, hrequest, h⟩ := bind_eq_ok.mp h
    obtain rfl := Except.ok.inj h
    exact ⟨Json.valid_of_getString (Json.encodable_of_at? hj hjprompt) hprompt,
      valid_of_fromJson (Json.encodable_of_at? hj hjtool) hrequest⟩
  · obtain rfl := Except.ok.inj h
    trivial

theorem valid_of_decode_error {json : Json} (hj : json.Encodable) {what : Bytes}
    (h : decode json = .error what) : Utf8.Valid what := by
  have hat : ∀ {key}, IsAscii key → json.at? key = .error what → Utf8.Valid what := fun hkey h =>
    valid_of_isAscii (Json.isAscii_of_at?_error hkey h)
  have hget : ∀ {j : Json}, j.getString = .error what → Utf8.Valid what := fun h =>
    valid_of_isAscii (Json.isAscii_of_getString_error h)
  have htool : ∀ {α : Type} (f : ToolRequest → Except Bytes α), (∀ r, f r ≠ .error what) →
      (do f (← ToolRequest.fromJson (← json.at? (ascii "tool")))) = .error what →
        Utf8.Valid what := by
    intro α f hf h
    rcases bind_eq_error.mp h with h | ⟨jtool, hjtool, h⟩
    · exact hat (by decide) h
    rcases bind_eq_error.mp h with h | ⟨request, -, h⟩
    · exact valid_of_fromJson_error (Json.encodable_of_at? hj hjtool) h
    · exact absurd h (hf request)
  unfold decode at h
  split_ifs at h
  · exact Except.error.inj h ▸ by decide
  rcases bind_eq_error.mp h with h | ⟨jmethod, -, h⟩
  · exact hat (by decide) h
  rcases bind_eq_error.mp h with h | ⟨method, -, h⟩
  · exact hget h
  split_ifs at h
  · cases h
  · exact htool _ (fun r hr => by cases hr) h
  · rcases bind_eq_error.mp h with h | ⟨jprompt, -, h⟩
    · exact hat (by decide) h
    rcases bind_eq_error.mp h with h | ⟨prompt, -, h⟩
    · exact hget h
    exact htool _ (fun r hr => by cases hr) h
  · cases h

/-! ### The error path -/

/-- The daemon's bound does not cut `value` inside a character. -/
def ReportClean (value : Bytes) : Prop := 2048 < value.length → CleanAt value (2048 - marker.length)

theorem reportClean_of_isAscii {value : Bytes} (h : IsAscii value) : ReportClean value :=
  fun _ => cleanAt_of_isAscii h _

theorem valid_boundAuditString {value : Bytes} (h : Valid value) :
    Valid (boundAuditString value) ↔ ReportClean value := by
  unfold boundAuditString
  by_cases hle : value.length ≤ 2048
  · rw [if_pos hle]
    exact ⟨fun _ hlt => absurd hlt (by omega), fun _ => h⟩
  · have hm : IsAscii marker := by decide
    rw [if_neg hle, ReportClean, ← valid_take_iff_cleanAt h]
    constructor
    · exact fun hv _ => (accepts_split hv fun b hb => hm b (List.mem_of_mem_head? hb)).1
    · exact fun hv => valid_append (hv (by omega)) (valid_of_isAscii hm)

theorem recordable_protocolError (id message : Bytes) :
    Recordable (ascii "cli") (ascii "protocol.error") (boundAuditString message)
      (.ok (.ofList [(ascii "request_id", boundAuditString id)])) ↔
      Valid (boundAuditString message) ∧ Valid (boundAuditString id) := by
  have hcli : Valid (ascii "cli") := by decide
  have htype : Valid (ascii "protocol.error") := by decide
  have hiff : Recordable (ascii "cli") (ascii "protocol.error") (boundAuditString message)
      (.ok (.ofList [(ascii "request_id", boundAuditString id)])) ↔
      Content.Encodable ⟨ascii "cli", ascii "protocol.error", boundAuditString message,
        .ofList [(ascii "request_id", boundAuditString id)]⟩ :=
    ⟨fun ⟨d, hd, he⟩ => Except.ok.inj hd ▸ he, fun he => ⟨_, rfl, he⟩⟩
  rw [hiff, encodable_ofList (by simp) (by simp only [List.map]; decide)]
  simp [hcli, htype]

theorem encodable_errorResponse (id message : Bytes) :
    (makeErrorResponse id message).Encodable ↔ Valid id ∧ Valid message := by
  have hkeys : ∀ k ∈ ["id", "ok", "error"], Valid (ascii k) := by decide
  simp only [List.forall_mem_cons] at hkeys
  rw [makeErrorResponse, Json.encodable_ofPairs (by simp only [List.map]; decide)]
  simp [hkeys]

/-- Encoding a value is evaluated: its text, or an ASCII exception. -/
theorem dump_evaluated (j : Json) (σ : History) :
    (j.Encodable ∧ (ofExcept j.dump).run σ = ([], .ok j.render)) ∨
    (¬ j.Encodable ∧ ∃ what, IsAscii what ∧ (ofExcept j.dump).run σ =
      ([], .error (.std what))) := by
  by_cases h : j.Encodable
  · rw [Json.dump_of_encodable h]
    exact .inl ⟨h, rfl⟩
  · obtain ⟨what, hd, ha⟩ := Json.dump_error_of_not_encodable h
    rw [hd]
    exact .inr ⟨h, what, ha, rfl⟩

section

variable {host : Host} (hw : host.Writable)

include hw

/-- An error is recorded and answered exactly when its text is well formed and neither it nor
the id is cut inside a character. -/
theorem protocolError_evaluated (audit : AuditLog) {id : Bytes} (hid : Valid id) (what : Bytes)
    (σ : History) :
    ((Valid what ∧ ReportClean what ∧ ReportClean id) ∧
      ∃ event, event.type = ascii "protocol.error" ∧
      (protocolError audit host id (.std what)).run σ =
        ([.issued, .appended event], .ok (makeErrorResponse id what).render)) ∨
    (¬ (Valid what ∧ ReportClean what ∧ ReportClean id) ∧ ∃ s what', IsAscii what' ∧
      (protocolError audit host id (.std what)).run σ = (s, .error (.std what'))) := by
  unfold protocolError auditProtocolError
  have hrec := recordable_protocolError id what
  have henc := encodable_errorResponse id what
  rcases record_evaluated audit host (ascii "cli") (ascii "protocol.error") (boundAuditString what)
    (.ok (.ofList [(ascii "request_id", boundAuditString id)])) hw (fun _ h => by cases h) σ
    with ⟨h, event, ht, hc⟩ | ⟨h, what', ha, hc⟩
  · rw [Run.run_bind_of_ok hc]
    obtain ⟨hbw, hbid⟩ := hrec.mp h
    rcases dump_evaluated (makeErrorResponse id what) (σ ++ [.issued, .appended event])
      with ⟨he, hd⟩ | ⟨he, what', ha, hd⟩
    · have hv := (henc.mp he).2
      rw [hd]
      exact .inl ⟨⟨hv, (valid_boundAuditString hv).mp hbw, (valid_boundAuditString hid).mp hbid⟩,
        event, ht, rfl⟩
    · rw [hd]
      exact .inr ⟨fun hall => he (henc.mpr ⟨hid, hall.1⟩), _, what', ha, rfl⟩
  · refine .inr ⟨?_, _, what', ha, Run.run_bind_of_error hc⟩
    rintro ⟨hv, hcw, hcid⟩
    exact h (hrec.mpr ⟨(valid_boundAuditString hv).mpr hcw, (valid_boundAuditString hid).mpr hcid⟩)

end

/-! ### Carrying out a command -/

/-- A call of the tool ends with a response of well-formed strings, with a `std::exception` that
says something ASCII, or with another exception. -/
def Behaves (tool : Tool) : Prop := ∀ request σ, request.Valid →
  match ((tool.call request).run σ).2 with
  | .ok response => response.Valid
  | .error (.std what) => IsAscii what
  | .error .other => True

/-- The outcome of the model can be reported: an answer that is recorded can be sent, and so can
the text of a failure. -/
def OutcomeClean : Except Exn Bytes → Prop
  | .ok answer => Valid (Session.boundAuditString answer) → Valid answer
  | .error (.std what) => Valid (Session.boundAuditString what) ∧ Valid what
  | .error .other => True

/-- The command is carried out without an exception, when the model has the outcome `outcome`. -/
def PerformClean (service : SessionService)
    (outcome : ModelRequest → Except Exn Bytes) (σ : History) (id : Bytes) : Command → Prop
  | .list => ∀ name ∈ service.listTools, Valid name
  | .call request => ∀ ex response, (service.respond request).run σ = (ex, .ok response) →
      CallClean request response
  | .ask prompt request => ∀ ex response, (service.respond request).run σ = (ex, .ok response) →
      CallClean request response ∧ CutsClean prompt maxAuditStringBytes ∧
        (response.status = .ok → OutcomeClean (outcome ⟨prompt, response.evidence⟩))
  | .other => ReportClean id

theorem encodable_listResponse {id : Bytes} (hid : Valid id) (tools : List Bytes) :
    (toolsListResponse id tools).Encodable ↔ ∀ name ∈ tools, Valid name := by
  have hkeys : ∀ k ∈ ["id", "ok", "tools"], Valid (ascii k) := by decide
  simp only [List.forall_mem_cons] at hkeys
  rw [toolsListResponse, Json.encodable_ofPairs (by simp only [List.map]; decide)]
  simp [hkeys, hid]

theorem encodable_callResponse {id : Bytes} (hid : Valid id) {response : ToolResponse}
    (h : response.Valid) : (makeToolCallResponse id response).Encodable := by
  have hkeys : ∀ k ∈ ["id", "ok", "response"], Valid (ascii k) := by decide
  simp only [List.forall_mem_cons] at hkeys
  rw [makeToolCallResponse, Json.encodable_ofPairs (by simp only [List.map]; decide)]
  simp [hkeys, hid, h.encodable]

theorem encodable_askResponse {id : Bytes} (hid : Valid id) (ok : Bool) (answer error : Bytes) :
    (makeAskResponse id ok answer error).Encodable ↔ if ok then Valid answer else Valid error := by
  have hkeys : ∀ k ∈ ["id", "ok", "answer", "error"], Valid (ascii k) := by decide
  simp only [List.forall_mem_cons] at hkeys
  cases ok with
  | true =>
    have hnodup : (([(ascii "id", .string id), (ascii "ok", .bool true)] ++
        [(ascii "answer", .string answer)] : List (Bytes × Json)).map Prod.fst).Nodup := by
      simp only [List.cons_append, List.nil_append, List.map]
      decide
    rw [makeAskResponse, if_pos rfl, Json.encodable_ofPairs hnodup]
    simp [hkeys, hid]
  | false =>
    have hnodup : (([(ascii "id", .string id), (ascii "ok", .bool false)] ++
        [(ascii "error", .string error)] : List (Bytes × Json)).map Prod.fst).Nodup := by
      simp only [List.cons_append, List.nil_append, List.map]
      decide
    rw [makeAskResponse, if_neg (by decide), Json.encodable_ofPairs hnodup]
    simp [hkeys, hid]

theorem valid_failedResponse {request : ToolRequest} (hrequest : request.Valid) {error : Exn}
    (h : ∀ what, error = .std what → IsAscii what) : (failedResponse request error).Valid := by
  cases error with
  | std what => exact ⟨hrequest.id, valid_of_isAscii (h what rfl), by simp [failedResponse]⟩
  | other =>
    have hmessage : Valid (ascii "tool call failed with unknown exception") := by decide
    exact ⟨hrequest.id, hmessage, by simp [failedResponse]⟩

/-- With well-behaved tools every response is well formed. -/
theorem valid_of_respond {service : SessionService}
    (htools : ∀ tool ∈ service.registry.tools, Behaves tool)
    {request : ToolRequest} (hrequest : request.Valid) {σ ex : History} {response : ToolResponse}
    (hr : (service.respond request).run σ = (ex, .ok response)) : response.Valid := by
  have hdenied : ∀ message, IsAscii message → (deniedResponse request message).Valid :=
    fun message ha =>
    ⟨hrequest.id, valid_of_isAscii ha, by simp [deniedResponse]⟩
  rcases hd : (service.policy.decide request).allowed with _ | _
  · rw [respond_of_denied service request hd] at hr
    obtain rfl := Except.ok.inj (Prod.mk.inj hr).2
    exact hdenied _ (Policy.isAscii_reason _ _)
  · rcases hf : service.registry.find request.toolName with _ | tool
    · rw [respond_of_unregistered service request hd hf] at hr
      obtain rfl := Except.ok.inj (Prod.mk.inj hr).2
      exact hdenied _ (by decide)
    · rw [respond_of_found service request hd hf] at hr
      obtain rfl := Except.ok.inj (Prod.mk.inj hr).2
      have hb := htools tool (ToolRegistry.find_eq_some_iff.mp hf).1 request σ hrequest
      rcases hcall : ((tool.call request).run σ).2 with error | response
      · rw [hcall] at hb
        refine valid_failedResponse hrequest fun what hwhat => ?_
        subst hwhat
        exact hb
      · rw [hcall] at hb
        exact hb

section

variable {service : SessionService} {host : Host} (outcome : ModelRequest → Except Exn Bytes)
variable (hw : host.Writable) (htools : ∀ tool ∈ service.registry.tools, Behaves tool)
variable {id : Bytes} (hid : Valid id) (σ : History)

include hw hid

theorem perform_call_evaluated {request : ToolRequest} (hrequest : request.Valid) {ex : History}
    {response : ToolResponse} (hr : (service.respond request).run σ = (ex, .ok response))
    (hresponse : response.Valid) :
    (CallClean request response ∧ ∃ s reply,
      (perform service host (steadyModel outcome) id (.call request)).run σ = (s, .ok reply)) ∨
    (¬ CallClean request response ∧ ∃ s what, IsAscii what ∧
      (perform service host (steadyModel outcome) id (.call request)).run σ =
        (s, .error (.std what))) := by
  unfold perform
  rcases callTool_evaluated hw (by decide : Valid (ascii "cli")) hrequest hresponse hr
    with ⟨h, call, -, hc⟩ | ⟨h, what, ha, hc⟩
  · rw [Run.run_bind_of_ok hc, Json.dump_of_encodable (encodable_callResponse hid hresponse)]
    exact .inl ⟨h, _, _, rfl⟩
  · exact .inr ⟨h, _, what, ha, Run.run_bind_of_error hc⟩

omit hw in
/-- The ask came to a result: it can be sent when its answer or its error is well formed. -/
theorem perform_ask_of_result {prompt : Bytes} {request : ToolRequest} {s : History} {r : AskResult}
    (hc : (service.askWithTool host prompt request (steadyModel outcome) (ascii "cli")).run σ =
      (s, .ok r)) :
    ((if r.ok then Valid r.answer else Valid r.error) ∧ ∃ s reply,
      (perform service host (steadyModel outcome) id (.ask prompt request)).run σ =
        (s, .ok reply)) ∨
    (¬ (if r.ok then Valid r.answer else Valid r.error) ∧ ∃ s what, IsAscii what ∧
      (perform service host (steadyModel outcome) id (.ask prompt request)).run σ =
        (s, .error (.std what))) := by
  unfold perform
  rw [Run.run_bind_of_ok hc, ← encodable_askResponse hid]
  rcases dump_evaluated (makeAskResponse id r.ok r.answer r.error)
    (σ ++ s) with ⟨he, hd⟩ | ⟨he, what, ha, hd⟩
  · rw [hd]
    exact .inl ⟨he, _, _, rfl⟩
  · rw [hd]
    exact .inr ⟨he, _, what, ha, rfl⟩

theorem perform_ask_evaluated {prompt : Bytes} (hprompt : Valid prompt) {request : ToolRequest}
    (hrequest : request.Valid) {ex : History} {response : ToolResponse}
    (hr : (service.respond request).run σ = (ex, .ok response)) (hresponse : response.Valid) :
    ((CallClean request response ∧ CutsClean prompt maxAuditStringBytes ∧
        (response.status = .ok → OutcomeClean (outcome ⟨prompt, response.evidence⟩))) ∧ ∃ s reply,
      (perform service host (steadyModel outcome) id (.ask prompt request)).run σ =
        (s, .ok reply)) ∨
    (¬ (CallClean request response ∧ CutsClean prompt maxAuditStringBytes ∧
        (response.status = .ok → OutcomeClean (outcome ⟨prompt, response.evidence⟩))) ∧ ∃ s what,
      IsAscii what ∧ (perform service host (steadyModel outcome) id (.ask prompt request)).run σ =
        (s, .error (.std what))) := by
  have hcli : Valid (ascii "cli") := by decide
  have herror : ∀ s what, IsAscii what →
      (service.askWithTool host prompt request (steadyModel outcome) (ascii "cli")).run σ =
        (s, .error (.std what)) →
      ∃ s what, IsAscii what ∧ (perform service host (steadyModel outcome) id
        (.ask prompt request)).run σ =
        (s, .error (.std what)) := fun s what ha hc => ⟨s, what, ha, Run.run_bind_of_error hc⟩
  by_cases h : CallClean request response ∧ CutsClean prompt maxAuditStringBytes
  swap
  · obtain ⟨s, what, ha, hc⟩ := ask_of_not_clean (steadyModel outcome) hw hcli hrequest hresponse
      hprompt hr h
    exact .inr ⟨fun hall => h ⟨hall.1, hall.2.1⟩, herror s what ha hc⟩
  obtain ⟨hclean, hcut⟩ := h
  by_cases hstatus : response.status = .ok
  swap
  · obtain ⟨s, hc⟩ := ask_of_skipped (steadyModel outcome) hw hcli hrequest hresponse hprompt hr
      hclean hcut hstatus
    rcases perform_ask_of_result outcome hid σ hc with ⟨-, hp⟩ | ⟨hn, -⟩
    · exact .inl ⟨⟨hclean, hcut, fun h => absurd h hstatus⟩, hp⟩
    · exact absurd (valid_append (by decide) hresponse.message) hn
  rcases ho : outcome ⟨prompt, response.evidence⟩ with error | answer
  · rcases ask_of_error (steadyModel outcome) hw hcli hrequest hresponse hprompt hr hclean hcut
      hstatus (fun _ => ho) with ⟨he, s, hc⟩ | ⟨he, s, what, ha, hc⟩
    · -- the failure is on record; its text may still not be encodable
      rcases perform_ask_of_result outcome hid σ hc with ⟨hv, hp⟩ | ⟨hn, hp⟩
      · refine .inl ⟨⟨hclean, hcut, fun _ => ?_⟩, hp⟩
        cases error with
        | std what => exact ⟨he, hv⟩
        | other => trivial
      · refine .inr ⟨fun hall => hn ?_, hp⟩
        have hout := hall.2.2 hstatus
        cases error with
        | std what => exact hout.2
        | other => exact (by decide : Valid unknownModelError)
    · refine .inr ⟨fun hall => he ?_, herror s what ha hc⟩
      have hout := hall.2.2 hstatus
      cases error with
      | std what => exact hout.1
      | other => trivial
  · by_cases hv : Valid (Session.boundAuditString answer)
    · obtain ⟨call, ask, reply, -, -, -, hc⟩ := ask_of_answer (steadyModel outcome) hw hcli hrequest
        hresponse hprompt hr hclean hcut hstatus (fun _ => ho) hv
      rcases perform_ask_of_result outcome hid σ hc with ⟨ha, hp⟩ | ⟨hn, hp⟩
      · exact .inl ⟨⟨hclean, hcut, fun _ _ => ha⟩, hp⟩
      · exact .inr ⟨fun hall => hn (hall.2.2 hstatus hv), hp⟩
    · obtain ⟨s, what, ha, hc⟩ := ask_of_unclean_answer (steadyModel outcome) hw hcli hrequest
        hresponse hprompt hr hclean hcut hstatus (fun _ => ho) hv
      rcases perform_ask_of_result outcome hid σ hc with ⟨-, hp⟩ | ⟨hn, -⟩
      · exact .inl ⟨⟨hclean, hcut, fun _ h => absurd h hv⟩, hp⟩
      · exact absurd (valid_of_isAscii ha) hn

include htools

/-- A command is carried out exactly when it is clean, and else throws an ASCII message. -/
theorem perform_evaluated {command : Command} (hcommand : command.Valid) :
    (PerformClean service outcome σ id command ∧ ∃ s reply,
      (perform service host (steadyModel outcome) id command).run σ = (s, .ok reply)) ∨
    (¬ PerformClean service outcome σ id command ∧ ∃ s what, IsAscii what ∧
      (perform service host (steadyModel outcome) id command).run σ = (s, .error (.std what))) := by
  have hunique : ∀ {request ex ex' r r'}, (service.respond request).run σ = (ex, .ok r) →
      (service.respond request).run σ = (ex', .ok r') → r = r' := fun h h' =>
    Except.ok.inj (Prod.mk.inj (h.symm.trans h')).2
  cases command with
  | list =>
    unfold perform
    rcases dump_evaluated (toolsListResponse id service.listTools) σ
      with ⟨he, hd⟩ | ⟨he, what, ha, hd⟩
    · exact .inl ⟨(encodable_listResponse hid _).mp he, _, _, hd⟩
    · exact .inr ⟨fun h => he ((encodable_listResponse hid _).mpr h), _, what, ha, hd⟩
  | call request =>
    obtain ⟨ex, response, hr, -⟩ := respond_ok service request σ
    rcases perform_call_evaluated outcome hw hid σ hcommand hr (valid_of_respond htools hcommand hr)
      with ⟨h, hp⟩ | ⟨h, hp⟩
    · exact .inl ⟨fun ex' r' hr' => hunique hr hr' ▸ h, hp⟩
    · exact .inr ⟨fun hall => h (hall ex response hr), hp⟩
  | ask prompt request =>
    obtain ⟨ex, response, hr, -⟩ := respond_ok service request σ
    rcases perform_ask_evaluated outcome hw hid σ hcommand.1 hcommand.2 hr
      (valid_of_respond htools hcommand.2 hr) with ⟨h, hp⟩ | ⟨h, hp⟩
    · exact .inl ⟨fun ex' r' hr' => hunique hr hr' ▸ h, hp⟩
    · exact .inr ⟨fun hall => h (hall ex response hr), hp⟩
  | other =>
    have hmessage : IsAscii (ascii "unknown method") := by decide
    rcases protocolError_evaluated hw service.audit hid (ascii "unknown method") σ
      with ⟨h, event, -, hp⟩ | ⟨h, s, what, ha, hp⟩
    · exact .inl ⟨h.2.2, _, _, hp⟩
    · exact .inr ⟨fun hc => h ⟨valid_of_isAscii hmessage, reportClean_of_isAscii hmessage, hc⟩,
        s, what, ha, hp⟩

end

/-! ### Every line -/

/-- The line does not parse, is no request, or asks for a method there is not. -/
def Rejected (parser : Parser) (input : Bytes) : Prop :=
  match parser.parse input with
  | .error _ => True
  | .ok json =>
    match decode json with
    | .error _ => True
    | .ok .other => True
    | .ok _ => False

/-- The handler returns a reply, and a rejected line leaves a `protocol.error` event. -/
def Answered (parser : Parser) (service : SessionService) (host : Host) (model : ModelProvider)
    (σ : History) (input : Bytes) : Prop :=
  ∃ s reply, (handleRequest parser service host model input).run σ = (s, .ok reply) ∧
    (Rejected parser input → ∃ event ∈ events s, event.type = ascii "protocol.error")

/-- The text of a parse error is well formed and cut cleanly; a line that is no request has an
id and an error that are cut cleanly; of a request the id is, or the command is clean. -/
def Answerable (parser : Parser) (service : SessionService)
    (outcome : ModelRequest → Except Exn Bytes) (σ : History) (input : Bytes) : Prop :=
  match parser.parse input with
  | .error what => Valid what ∧ ReportClean what
  | .ok json =>
    match decode json with
    | .error what => ReportClean what ∧ ReportClean (requestIdOrUnknown json)
    | .ok command =>
      ReportClean (requestIdOrUnknown json) ∨
        PerformClean service outcome σ (requestIdOrUnknown json) command

section

variable (parser : Parser) (service : SessionService) {host : Host}
  (outcome : ModelRequest → Except Exn Bytes)
variable (hw : host.Writable)

include hw

/-- The catch clause, once the text of the error is well formed. -/
theorem protocolError_answered (what : Bytes) {id : Bytes} (hid : Valid id) (σ : History) :
    (∃ s reply, (protocolError service.audit host id (.std what)).run σ = (s, .ok reply) ∧
      ∃ event ∈ events s, event.type = ascii "protocol.error") ↔
    Valid what ∧ ReportClean what ∧ ReportClean id := by
  rcases protocolError_evaluated hw service.audit hid what σ
    with ⟨h, event, ht, hc⟩ | ⟨h, s, e, -, hc⟩
  · exact ⟨fun _ => h, fun _ => ⟨_, _, hc, event, by simp, ht⟩⟩
  · refine ⟨?_, fun hall => absurd hall h⟩
    rintro ⟨s', reply, hs', -⟩
    rw [hc] at hs'
    cases hs'

/-- With a steady model exactly the answerable lines are answered. -/
theorem answered_iff_of_steady (htools : ∀ tool ∈ service.registry.tools, Behaves tool)
    (σ : History) (input : Bytes) :
    Answered parser service host (steadyModel outcome) σ input ↔
      Answerable parser service outcome σ input := by
  have hunknown : IsAscii unknownId := by decide
  unfold Answered Answerable Rejected handleRequest
  rcases hp : parser.parse input with what | json
  · have hiff := protocolError_answered service hw what
      (valid_of_isAscii hunknown) σ
    simp only [true_imp_iff]
    rw [hiff]
    exact ⟨fun ⟨h₁, h₂, _⟩ => ⟨h₁, h₂⟩, fun ⟨h₁, h₂⟩ => ⟨h₁, h₂, reportClean_of_isAscii hunknown⟩⟩
  have hj := parser.encodable input json hp
  have hid := valid_requestId hj
  dsimp only
  rw [dispatch_eq]
  rcases hd : decode json with what | command
  · have hiff := protocolError_answered service hw what hid σ
    rw [Run.run_tryCatch_of_error (s := []) (e := .std what) rfl]
    simp only [List.append_nil, List.nil_append, true_imp_iff, Prod.mk.eta]
    rw [hiff]
    exact and_iff_right (valid_of_decode_error hj hd)
  have hcommand := valid_of_decode hj hd
  rw [ofExcept_ok, Run.pure_bind]
  rcases perform_evaluated outcome hw htools hid σ hcommand
    with ⟨h, s, reply, hc⟩ | ⟨h, s, what, ha, hc⟩
  · -- the command is carried out; an unknown method is recorded on the way
    refine ⟨fun _ => .inr h, fun _ => ⟨s, reply, Run.run_tryCatch_of_ok hc, ?_⟩⟩
    cases command with
    | other =>
      intro _
      obtain ⟨s', reply', hs', hevent⟩ := (protocolError_answered service hw
        (ascii "unknown method") hid σ).mpr
        ⟨valid_of_isAscii (by decide : IsAscii (ascii "unknown method")),
          reportClean_of_isAscii (by decide), h⟩
      rw [(Prod.mk.inj (hc.symm.trans hs')).1]
      exact hevent
    | _ => exact False.elim
  · -- the command threw an ASCII message, which the catch clause reports
    rw [Run.run_tryCatch_of_error hc]
    have hiff := protocolError_answered service hw what hid (σ ++ s)
    constructor
    · rintro ⟨s', reply, hs', -⟩
      obtain ⟨hs, hr⟩ := Prod.mk.inj hs'
      rcases protocolError_evaluated hw service.audit hid what (σ ++ s)
        with ⟨hall, -⟩ | ⟨-, s₂, e, -, hc'⟩
      · exact .inl hall.2.2
      · rw [hc'] at hr
        cases hr
    · rintro (hclean | hperform)
      · obtain ⟨s', reply, hs', event, hevent, ht⟩ := hiff.mpr
          ⟨valid_of_isAscii ha, reportClean_of_isAscii ha, hclean⟩
        rw [hs']
        exact ⟨_, _, rfl, fun _ => ⟨event, by simp [hevent], ht⟩⟩
      · exact absurd hperform h

omit hw in
variable (host) in
theorem handleRequest_steady (model : ModelProvider) (σ : History) (input : Bytes) : ∃ τ, σ <+: τ ∧
    (handleRequest parser service host model input).run σ =
      (handleRequest parser service host (steadyModel (model.complete τ)) input).run σ := by
  have hself : σ <+: σ := List.prefix_refl σ
  unfold handleRequest
  rcases parser.parse input with what | json
  · exact ⟨σ, hself, rfl⟩
  dsimp only
  simp only [dispatch_eq]
  rcases decode json with what | command
  · exact ⟨σ, hself, rfl⟩
  simp only [ofExcept_ok, Run.pure_bind]
  cases command with
  | ask prompt request =>
    obtain ⟨τ, hτ, heq⟩ := askWithTool_steady service host model prompt request (ascii "cli") σ
    exact ⟨τ, hτ, Run.run_tryCatch_congr (Run.run_bind_congr heq fun _ _ _ => rfl)⟩
  | _ => exact ⟨σ, hself, rfl⟩

variable {parser service}

/-- Exactly the answerable lines are answered, whatever the model does at the moment it is asked. -/
theorem handleRequest_answered_iff (htools : ∀ tool ∈ service.registry.tools, Behaves tool)
    (model : ModelProvider) (σ : History) (input : Bytes) :
    ∃ τ, σ <+: τ ∧ (Answered parser service host model σ input ↔
      Answerable parser service (model.complete τ) σ input) := by
  obtain ⟨τ, hτ, heq⟩ := handleRequest_steady parser service host model σ input
  refine ⟨τ, hτ, ?_⟩
  rw [← answered_iff_of_steady parser service _ hw htools, Answered, Answered, heq]

end

/-! ### A line that is not answered -/

/-- A parser that knows one line. -/
def lineParser (json : Json) (h : json.Encodable) : Parser where
  parse input :=
    if input = json.render then .ok json else .error
      (ascii "[json.exception.parse_error.101] parse error")
  encodable input json' hp := by
    split_ifs at hp
    exact Except.ok.inj hp ▸ h

theorem parse_lineParser (json : Json) (h : json.Encodable) :
    (lineParser json h).parse json.render = .ok json := if_pos rfl

/-- A request for a method there is not. -/
def strayRequest (id : Bytes) : Json :=
  .ofPairs [(ascii "id", .string id), (ascii "method", .string (ascii "nope"))]

theorem strayRequest_encodable {id : Bytes} (hid : Valid id) : (strayRequest id).Encodable := by
  have hkeys : ∀ k ∈ ["id", "method", "nope"], Valid (ascii k) := by decide
  simp only [List.forall_mem_cons] at hkeys
  rw [strayRequest, Json.encodable_ofPairs (by simp only [List.map]; decide)]
  simp [hkeys, hid]

theorem decode_strayRequest {id : Bytes} (h : id ≠ unknownId) :
    decode (strayRequest id) = .ok .other := by
  have hid : requestIdOrUnknown (strayRequest id) = id := rfl
  rw [decode, hid, if_neg h]
  rfl

theorem infoService_behaves : ∀ tool ∈ infoService.registry.tools, Behaves tool := by
  intro tool htool
  obtain rfl := List.mem_singleton.mp htool
  exact fun _ _ _ => infoResponse_valid

theorem handleRequest_answered_empty : ∃ τ, [] <+: τ ∧
    (Answered (lineParser (.object []) (by simp)) infoService stillHost (constantModel [])
      [] (ascii "{}") ↔
      Answerable (lineParser (.object []) (by simp)) infoService ((constantModel []).complete τ) []
        (ascii "{}")) :=
  handleRequest_answered_iff (fun _ _ => rfl) infoService_behaves (constantModel []) [] (ascii "{}")

/-- An id that the daemon's bound cuts inside a character: the error path throws. -/
theorem handleRequest_escapes :
    ¬ ∀ (parser : Parser) (service : SessionService) (host : Host)
      (model : ModelProvider) (σ : History)
      (input : Bytes), chr '\n' ∉ input → input.length ≤ 1024 * 1024 → host.Writable →
      (∀ tool ∈ service.registry.tools, Behaves tool) →
        Answered parser service host model σ input := by
  have hid : Valid (accentAt 2033 20) := accentAt_valid 2033 20
  have hreport : ¬ ReportClean (accentAt 2033 20) := by
    rw [ReportClean, length_accentAt]
    exact fun h => accentAt_not_cleanAt 2033 20 (h (by decide))
  have hnot : accentAt 2033 20 ≠ unknownId := fun h => by
    have hlen := congrArg List.length h
    rw [length_accentAt] at hlen
    exact absurd hlen (by decide)
  intro h
  have hanswered := h (lineParser (strayRequest (accentAt 2033 20)) (strayRequest_encodable hid))
    infoService stillHost (steadyModel fun _ => .ok []) [] (strayRequest (accentAt 2033 20)).render
    (by decide +kernel) (by decide +kernel) (fun _ _ => rfl) infoService_behaves
  rw [answered_iff_of_steady _ _ _ (fun _ _ => rfl) infoService_behaves, Answerable,
    parse_lineParser] at hanswered
  simp only [decode_strayRequest hnot] at hanswered
  rcases hanswered with hclean | hclean
  · exact hreport hclean
  · exact hreport hclean

end Kasli.Kaslid
