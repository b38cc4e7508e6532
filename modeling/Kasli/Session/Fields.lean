import Kasli.Core.RedactJson
import Kasli.Session.SessionService

/-! The JSON texts among the details of an event. Each is the text of a value that is redacted
and cut once more. While the second redaction stays within the strings and the cut is not
reached, the text is read back as what was recorded: an object with the keys of the parameters, an array
with a reference for each record. -/

namespace Kasli.Session

open Core Policy Audit Json

/-- The second redaction stays within strings, and its result is not cut. -/
structure Intact (j : Json) : Prop where
  keys : ∀ k ∈ j.keys, ∀ R ∈ rules, QuietKey R k
  within : RedactsWithin rules j.render
  short : (redactLikelySecret j.render).length ≤ maxAuditJsonBytes

section

variable {parse : Bytes → Except Bytes Json}

/-- The bounded text of an intact value is read as a value with its skeleton. -/
theorem parse_boundJson (hparse : Undoes parse) {j : Json} (hw : j.Written)
    (h : Intact j) {text : Bytes}
    (hb : boundJson j = .ok text) : ∃ j', parse text = .ok j' ∧ j'.skeleton = j.skeleton := by
  have he : j.Encodable := by
    by_contra hne
    obtain ⟨what, herror, -⟩ := boundJson_of_not_encodable hne
    rw [herror] at hb
    cases hb
  rw [boundJson_of_encodable he, boundString_of_le h.short] at hb
  obtain ⟨j', hj', hredact, hw', he'⟩ := redact_render hw h.keys h.within
  obtain rfl : j'.render = text := hredact ▸ Except.ok.inj hb
  exact ⟨j', hparse j' hw' (he' he), hj'⟩

end

/-! ### Values by their skeletons -/

theorem string_of_skeleton {j : Json} (h : j.skeleton = .string []) : ∃ s, j = .string s := by
  cases j with
  | string s => exact ⟨s, rfl⟩
  | _ => cases h

theorem array_of_skeleton {j : Json} {js : List Json} (h : j.skeleton = .array js) :
    ∃ js', j = .array js' ∧ js'.map skeleton = js := by
  cases j with
  | array js' => exact ⟨js', rfl, itemSkeletons_eq js' ▸ Json.array.inj h⟩
  | _ => cases h

theorem object_of_skeleton {j : Json} {ms : List (Bytes × Json)} (h : j.skeleton = .object ms) :
    ∃ ms', j = .object ms' ∧ (ms'.map fun m => (m.1, m.2.skeleton)) = ms := by
  cases j with
  | object ms' => exact ⟨ms', rfl, memberSkeletons_eq ms' ▸ Json.object.inj h⟩
  | _ => cases h

/-! ### Parameters -/

theorem written_boundedParamsJson (params : OrderedMap Bytes Bytes) :
    (boundedParamsJson params).Written := by
  refine ⟨?_, writtenMembers_iff.mpr fun e he => ?_⟩
  · rw [List.pairwise_map]
    exact params.sorted
  · obtain ⟨p, -, rfl⟩ := List.mem_map.mp he
    trivial

/-- The text is read as an object with the keys of the parameters. -/
def ReadsAsParams (parse : Bytes → Except Bytes Json) (params : OrderedMap Bytes Bytes)
    (text : Bytes) : Prop :=
  ∃ ms, parse text = .ok (.object ms) ∧ ms.map Prod.fst = params.entries.map Prod.fst

/-! ### References -/

/-- An object of four strings. -/
def IsReference (j : Json) : Prop :=
  ∃ id source summary timestamp,
    j = .ofPairs [(ascii "id", .string id), (ascii "source", .string source),
    (ascii "summary", .string summary), (ascii "timestamp", .string timestamp)]

def truncation : Json := .ofPairs [(ascii "truncated", .bool true)]

/-- The text is read as an array with a reference for each of the records, up to the limit. -/
def ReadsAsRefs (parse : Bytes → Except Bytes Json) (evidence : List Evidence)
    (text : Bytes) : Prop :=
  ∃ refs, parse text =
      .ok (.array (refs ++ if maxAuditEvidenceRefs < evidence.length then [truncation] else [])) ∧
    refs.length = min evidence.length maxAuditEvidenceRefs ∧ ∀ j ∈ refs, IsReference j

theorem written_evidenceRefsJson (evidence : List Evidence) :
    (evidenceRefsJson evidence).Written := by
  refine writtenItems_iff.mpr fun j hj => ?_
  rw [evidenceRefs_eq, List.mem_append] at hj
  rcases hj with hj | hj
  · obtain ⟨item, -, rfl⟩ := List.mem_map.mp hj
    exact written_ofPairs (by simp [Json.Written])
  · split_ifs at hj
    · rw [List.mem_singleton.mp hj]
      exact written_ofPairs (by simp [Json.Written])
    · cases hj

theorem isReference_of_skeleton {item : Evidence} {j : Json}
    (h : j.skeleton = (evidenceRef item).skeleton) : IsReference j := by
  have href : (evidenceRef item).skeleton =
    .object [(ascii "id", .string []), (ascii "source", .string []),
    (ascii "summary", .string []), (ascii "timestamp", .string [])] := rfl
  obtain ⟨ms, rfl, hms⟩ := object_of_skeleton (h.trans href)
  simp only [List.map_eq_cons_iff, List.map_eq_nil_iff] at hms
  obtain ⟨⟨k₁, j₁⟩, _, rfl, h₁, ⟨k₂, j₂⟩, _, rfl, h₂, ⟨k₃, j₃⟩, _, rfl, h₃, ⟨k₄, j₄⟩, _,
    rfl, h₄, rfl⟩ := hms
  obtain ⟨rfl, hs₁⟩ := Prod.mk.inj h₁
  obtain ⟨rfl, hs₂⟩ := Prod.mk.inj h₂
  obtain ⟨rfl, hs₃⟩ := Prod.mk.inj h₃
  obtain ⟨rfl, hs₄⟩ := Prod.mk.inj h₄
  obtain ⟨id, rfl⟩ := string_of_skeleton hs₁
  obtain ⟨source, rfl⟩ := string_of_skeleton hs₂
  obtain ⟨summary, rfl⟩ := string_of_skeleton hs₃
  obtain ⟨timestamp, rfl⟩ := string_of_skeleton hs₄
  exact ⟨id, source, summary, timestamp, rfl⟩

theorem truncation_of_skeleton {j : Json} (h : j.skeleton = truncation.skeleton) :
    j = truncation := by
  have htrunc : truncation.skeleton = .object [(ascii "truncated", .bool true)] := rfl
  obtain ⟨ms, rfl, hms⟩ := object_of_skeleton (h.trans htrunc)
  simp only [List.map_eq_cons_iff, List.map_eq_nil_iff] at hms
  obtain ⟨⟨k, j⟩, _, rfl, hmember, rfl⟩ := hms
  obtain ⟨rfl, hj⟩ := Prod.mk.inj hmember
  cases j with
  | bool b =>
    obtain rfl := Json.bool.inj hj
    rfl
  | _ => cases hj

/-! ### What is read -/

section

variable {parse : Bytes → Except Bytes Json} (hparse : Undoes parse)

include hparse

theorem readsAsParams_of_intact {params : OrderedMap Bytes Bytes}
    (h : Intact (boundedParamsJson params)) {text : Bytes}
    (hb : boundJson (boundedParamsJson params) = .ok text) : ReadsAsParams parse params text := by
  obtain ⟨j, hj, hskeleton⟩ := parse_boundJson hparse (written_boundedParamsJson params) h hb
  obtain ⟨ms, rfl, hms⟩ := object_of_skeleton hskeleton
  refine ⟨ms, hj, ?_⟩
  have hkeys := congrArg (List.map Prod.fst) hms
  rw [memberSkeletons_eq] at hkeys
  simpa [List.map_map, Function.comp_def] using hkeys

theorem readsAsRefs_of_intact {evidence : List Evidence}
    (h : Intact (evidenceRefsJson evidence)) {text : Bytes}
    (hb : boundJson (evidenceRefsJson evidence) = .ok text) : ReadsAsRefs parse evidence text := by
  obtain ⟨j, hj, hskeleton⟩ := parse_boundJson hparse (written_evidenceRefsJson evidence) h hb
  obtain ⟨js, rfl, hjs⟩ := array_of_skeleton hskeleton
  rw [evidenceRefs_eq, itemSkeletons_eq, List.map_append, List.map_eq_append_iff] at hjs
  obtain ⟨refs, rest, rfl, hrefs, hrest⟩ := hjs
  rw [List.map_map] at hrefs
  obtain rfl : rest = if maxAuditEvidenceRefs < evidence.length then [truncation] else [] := by
    rw [Nat.sub_zero] at hrest
    split_ifs at hrest ⊢
    · obtain ⟨j, rfl, hone⟩ := List.map_eq_singleton_iff.mp hrest
      rw [truncation_of_skeleton hone]
    · simpa using hrest
  refine ⟨refs, hj, ?_, fun j hmem => ?_⟩
  · have hlen := congrArg List.length hrefs
    simpa [Nat.min_comm] using hlen
  · have hskel : j.skeleton ∈ refs.map skeleton := List.mem_map_of_mem hmem
    rw [hrefs] at hskel
    obtain ⟨item, -, hitem⟩ := List.mem_map.mp hskel
    exact isReference_of_skeleton hitem.symm

end

/-! ### The details of events -/

theorem exists_bounded {j : Json} {details : OrderedMap Bytes Bytes}
    {f : Bytes → OrderedMap Bytes Bytes}
    (h : (do return f (← boundJson j) : Except Bytes (OrderedMap Bytes Bytes)) = .ok details) :
    ∃ text, boundJson j = .ok text ∧ details = f text := by
  cases hb : boundJson j with
  | error what =>
    rw [hb] at h
    cases h
  | ok text =>
    rw [hb] at h
    exact ⟨text, rfl, (Except.ok.inj h).symm⟩

theorem find?_jsonDetails {request : ToolRequest} {decision : PolicyDecision}
    {response : ToolResponse} {details : OrderedMap Bytes Bytes}
    (h : toolAuditDetails request decision response = .ok details) :
    ∃ params refs, boundJson (boundedParamsJson request.params) = .ok params ∧
      boundJson (evidenceRefsJson response.evidence) = .ok refs ∧
      details.find? (ascii "request_params") = some params ∧
      details.find? (ascii "response_evidence_refs") = some refs := by
  unfold toolAuditDetails at h
  cases hparams : boundJson (boundedParamsJson request.params) with
  | error what =>
    rw [hparams] at h
    cases h
  | ok params =>
    rw [hparams] at h
    obtain ⟨refs, hrefs, rfl⟩ := exists_bounded h
    exact ⟨params, refs, rfl,
      hrefs, by rw [OrderedMap.find?_ofList]; rfl, by rw [OrderedMap.find?_ofList]; rfl⟩

/-- The details of which events hold references, and in which field. -/
def refsFields : List (Bytes × Bytes) :=
  [(ascii "tool.call", ascii "response_evidence_refs"),
    (ascii "model.request", ascii "evidence_refs"), (ascii "model.skipped", ascii "evidence_refs"),
    (ascii "model.error", ascii "evidence_refs")]

/-- The JSON texts of an event are read as the parameters and the references of the call it is
about, those that are intact. -/
structure FieldsRead (parse : Bytes → Except Bytes Json) (params : OrderedMap Bytes Bytes)
    (evidence : List Evidence) (event : AuditEvent) : Prop where
  params : event.type = ascii "tool.call" → Intact (boundedParamsJson params) →
    ∃ text, event.details.find? (ascii "request_params") = some text ∧
      ReadsAsParams parse params text
  refs : ∀ field, (event.type, field) ∈ refsFields → Intact (evidenceRefsJson evidence) →
    ∃ text, event.details.find? field = some text ∧ ReadsAsRefs parse evidence text

section

variable {parse : Bytes → Except Bytes Json} (hparse : Undoes parse)
variable {service : SessionService} {host : Host} {model : ModelProvider} {prompt actor : Bytes}
  {request : ToolRequest} {response : ToolResponse} {event : AuditEvent}

include hparse

theorem IsToolCall.fieldsRead (h : IsToolCall service request actor response event) :
    FieldsRead parse request.params response.evidence event := by
  obtain ⟨details, hdetails, hc⟩ := h
  have htype : event.type = ascii "tool.call" := congrArg Content.type hc
  obtain rfl : event.details = details := congrArg Content.details hc
  obtain ⟨params, refs, hparams, hrefs, hfindParams, hfindRefs⟩ := find?_jsonDetails hdetails
  constructor
  · exact fun _ hintact => ⟨params, hfindParams, readsAsParams_of_intact hparse hintact hparams⟩
  · intro field hfield hintact
    obtain rfl : field = ascii "response_evidence_refs" := by
      have hfields : ∀ entry ∈ refsFields, entry.1 = ascii "tool.call" →
          entry.2 = ascii "response_evidence_refs" := by
        decide
      exact hfields _ hfield htype
    exact ⟨refs, hfindRefs, readsAsRefs_of_intact hparse hintact hrefs⟩

theorem fieldsRead_of_refs {type summary text : Bytes} {details params : OrderedMap Bytes Bytes}
    {evidence : List Evidence} (hc : content event = ⟨actor, type, summary, details⟩)
    (htype : type ≠ ascii "tool.call") (hb : boundJson (evidenceRefsJson evidence) = .ok text)
    (hfind : details.find? (ascii "evidence_refs") = some text) :
    FieldsRead parse params evidence event := by
  obtain rfl : event.type = type := congrArg Content.type hc
  obtain rfl : event.details = details := congrArg Content.details hc
  constructor
  · exact fun h => absurd h htype
  · intro field hfield hintact
    obtain rfl : field = ascii "evidence_refs" := by
      have hfields : ∀ entry ∈ refsFields, entry.1 ≠ ascii "tool.call" →
          entry.2 = ascii "evidence_refs" := by
        decide
      exact hfields _ hfield htype
    exact ⟨text, hfind, readsAsRefs_of_intact hparse hintact hb⟩

end

/-- What is appended is of this kind. -/
def OnAppended (p : AuditEvent → Prop) (a : Action) : Prop := ∀ event, a = .appended event → p event

theorem forall_events_iff {p : AuditEvent → Prop} {σ : History} :
    (∀ event ∈ events σ, p event) ↔ ∀ a ∈ σ, OnAppended p a := by
  constructor
  · rintro h a ha event rfl
    exact h event (mem_events.mpr ha)
  · exact fun h event he => h _ (mem_events.mp he) event rfl

section

variable {parse : Bytes → Except Bytes Json}
variable (service : SessionService) (host : Host) (model : ModelProvider) (prompt actor : Bytes)
  (request : ToolRequest)

theorem fieldsRead_record {type summary : Bytes} {details : Except Bytes (OrderedMap Bytes Bytes)}
    {params : OrderedMap Bytes Bytes} {evidence : List Evidence}
    (h : ∀ event d, details = .ok d → content event = ⟨actor, type, summary, d⟩ →
      FieldsRead parse params evidence event) :
    Run.Only (OnAppended (FieldsRead parse params evidence))
      (service.audit.record host actor type summary details) :=
  record_only service.audit host actor type summary details nofun fun event d hd hc _ heq =>
    Action.appended.inj heq ▸ h event d hd hc

theorem fieldsRead_complete (question : ModelRequest) :
    Run.Only (OnAppended (FieldsRead parse request.params question.evidence))
      (service.complete host model question request actor) := by
  have hask : Run.Only (OnAppended (FieldsRead parse request.params question.evidence))
      (model.ask question) :=
    (Run.only_emit nofun).bind fun _ => Run.only_ask _ _
  refine hask.bind fun answer => (fieldsRead_record service host actor fun event d hd hc =>
      ?_).bind fun _ =>
    Run.only_pure _ _
  have htype : event.type = ascii "model.response" := congrArg Content.type hc
  have hnot : ∀ entry ∈ refsFields, entry.1 ≠ ascii "model.response" := by decide
  exact ⟨fun h => absurd (htype.symm.trans h) (by decide), fun field hfield =>
    absurd htype (hnot _ hfield)⟩

variable (hparse : Undoes parse)

include hparse

/-- An event whose details are computed from the bounded references. -/
theorem fieldsRead_refs {type summary : Bytes} {params : OrderedMap Bytes Bytes}
    {evidence : List Evidence}
    (htype : type ≠ ascii "tool.call") (details : Bytes → OrderedMap Bytes Bytes)
    (hfind : ∀ text, (details text).find? (ascii "evidence_refs") = some text) :
    Run.Only (OnAppended (FieldsRead parse params evidence))
      (service.audit.record host actor type summary
      (do return details (← boundJson (evidenceRefsJson evidence)))) := by
  refine fieldsRead_record service host actor fun event d hd hc => ?_
  obtain ⟨text, hb, rfl⟩ := exists_bounded hd
  exact fieldsRead_of_refs hparse hc htype hb (hfind text)

theorem fieldsRead_modelRequest (evidence : List Evidence) :
    Run.Only (OnAppended (FieldsRead parse request.params evidence))
      (service.audit.record host actor (ascii "model.request") (boundAuditString prompt)
        (modelContextDetails prompt request evidence)) :=
  fieldsRead_refs service host actor hparse (by decide) _
    fun text => by rw [OrderedMap.find?_ofList]; rfl

theorem fieldsRead_modelSkipped (response : ToolResponse) :
    Run.Only (OnAppended (FieldsRead parse request.params response.evidence))
      (service.audit.record host actor
      (ascii "model.skipped") (boundAuditString prompt) (skippedDetails prompt request response)) :=
  fieldsRead_refs service host actor hparse (by decide) _
    fun text => by rw [OrderedMap.find?_ofList]; rfl

theorem fieldsRead_modelError (question : ModelRequest) (error : Exn) :
    Run.Only (OnAppended (FieldsRead parse request.params question.evidence))
      (service.modelError host question request actor error) := by
  have hrecord : ∀ message,
    Run.Only (OnAppended (FieldsRead parse request.params question.evidence))
      (service.audit.record host actor (ascii "model.error") (boundAuditString question.prompt)
        (modelErrorDetails question.prompt request message question.evidence)) := fun message =>
    fieldsRead_refs service host actor hparse (by decide) _
      fun text => by rw [OrderedMap.find?_ofList]; rfl
  cases error with
  | std what => exact (hrecord _).bind fun _ => Run.only_pure _ _
  | other => exact (hrecord _).bind fun _ => Run.only_pure _ _

/-- In every call and every ask the events' intact texts are read. -/
theorem audit_fields_read {σ ex : History} {response : ToolResponse}
    (hr : (service.respond request).run σ = (ex, .ok response)) :
    (∀ event ∈ events ((service.callTool host request actor).run σ).1,
      FieldsRead parse request.params response.evidence event) ∧
    ∀ event ∈ events ((service.askWithTool host prompt request model actor).run σ).1,
      FieldsRead parse request.params response.evidence event := by
  have hex : events ex = [] := by
    obtain ⟨ex', response', hr', hquiet⟩ := respond_ok service request σ
    obtain ⟨rfl, -⟩ := Prod.mk.inj (hr.symm.trans hr')
    exact events_of_executions hquiet
  rcases callTool_cases service host request actor hr with ⟨call, hcall, hrun⟩ | ⟨what, hrun⟩
  · have hread := hcall.fieldsRead hparse
    have hevents : events (ex ++ [.issued, .appended call]) = [call] := by simp [hex]
    refine ⟨by simpa [hrun, hevents] using hread, ?_⟩
    rw [SessionService.askWithTool, Run.run_bind_of_ok hrun, events_append, hevents,
      List.forall_mem_append, List.forall_mem_singleton, forall_events_iff]
    refine ⟨hread, ?_⟩
    by_cases hstatus : response.status = .ok
    · simp only [hstatus, ne_eq, not_true_eq_false, if_false]
      exact ((fieldsRead_modelRequest service host prompt actor request hparse
          response.evidence).bind fun _ =>
        (fieldsRead_complete service host model actor request _).tryCatch fun error =>
          fieldsRead_modelError service host actor request hparse _ error) _
    · simp only [hstatus, ne_eq, not_false_eq_true, if_true]
      exact ((fieldsRead_modelSkipped service host prompt actor request hparse response).bind
          fun _ =>
        Run.only_pure _ _) _
  · have hevents : events (ex ++ [.issued]) = [] := by simp [hex]
    refine ⟨by simp [hrun, hevents], ?_⟩
    rw [SessionService.askWithTool, Run.run_bind_of_error hrun, hevents]
    simp

end

/-! ### Texts that are read and texts that are not -/

/-- A value in whose text no rule finds anything. -/
theorem intact_of_unmatched {j : Json} (hk : ∀ k ∈ j.keys, NoWords (k.flatMap escapeByte))
    (h : ∀ R ∈ rules, R.spans j.render = [] ∧ R.replaceAll j.render = j.render)
    (hshort : j.render.length ≤ maxAuditJsonBytes) : Intact j := by
  have hwithin : ∀ R ∈ rules, WithinStrings R j.render := fun R hR t ht => by
    rw [(h R hR).1] at ht
    cases ht
  simp only [rules, List.forall_mem_cons] at h hwithin
  obtain ⟨⟨-, h₁⟩, ⟨-, h₂⟩, ⟨-, h₃⟩, ⟨-, h₄⟩, -⟩ := h
  obtain ⟨hw₁, hw₂, hw₃, hw₄, -⟩ := hwithin
  refine ⟨fun k hkey => quietKey_of_noWords (hk k hkey), ?_, ?_⟩
  · simp only [rules, RedactsWithin, h₁, h₂, h₃]
    exact ⟨hw₁, hw₂, hw₃, hw₄, trivial⟩
  · simp only [redactLikelySecret, h₁, h₂, h₃, h₄]
    exact hshort

def unitRequest : ToolRequest :=
  { id := ascii "r1", toolName := ascii "systemd.unit.status", risk := .readOnly,
    params := .ofList [(ascii "unit", ascii "ssh.service")] }

def unitResponse : ToolResponse :=
  { requestId := ascii "r1", status := .ok, message := ascii "ok",
    evidence := [{ id := ascii "r1:unit", source := ascii "systemd", summary := ascii "unit status",
                   body := ascii "active", timestamp := [] }] }

theorem unitResponse_valid : unitResponse.Valid :=
  ⟨by decide, by decide, by simpa [unitResponse] using ⟨by decide, by decide, by decide, by decide, by decide⟩⟩

def unitService : SessionService := singleService (constantTool unitRequest.toolName unitResponse)

theorem audit_fields_read_unit :
    Intact (boundedParamsJson unitRequest.params) ∧
      Intact (evidenceRefsJson unitResponse.evidence) ∧
    (∀ event ∈ events ((unitService.callTool stillHost unitRequest (ascii "cli")).run []).1,
      FieldsRead Json.parse unitRequest.params unitResponse.evidence event) ∧
    ∀ event ∈ events ((unitService.askWithTool stillHost (ascii "why?") unitRequest
        (steadyModel fun _ => .ok (ascii "fine")) (ascii "cli")).run []).1,
      FieldsRead Json.parse unitRequest.params unitResponse.evidence event :=
  ⟨intact_of_unmatched (by decide +kernel) (by decide +kernel) (by decide +kernel),
    intact_of_unmatched (by decide +kernel) (by decide +kernel) (by decide +kernel),
    audit_fields_read unitService stillHost _ (ascii "why?")
      (ascii "cli") unitRequest Json.undoes_parse
      (respond_constantTool unitResponse unitRequest rfl [])⟩

/-- A value with a colon after a key word: what follows the word is redacted once, and once more
with the end of the text. -/
def passwordRequest : ToolRequest :=
  { id := ascii "r1", toolName := ascii "journal.query", risk := .readOnly,
    params := .ofList [(ascii "q", ascii "password: x")] }

theorem fields_unread : ¬ ∀ (parse : Bytes → Except Bytes Json) (request : ToolRequest)
    (decision : PolicyDecision)
    (response : ToolResponse) (details : OrderedMap Bytes Bytes), Undoes parse → request.Valid →
      response.Valid →
    toolAuditDetails request decision response = .ok details →
    ∃ text, details.find? (ascii "request_params") = some text ∧
      ReadsAsParams parse request.params text := by
  intro h
  have hparams : (boundedParamsJson passwordRequest.params).Encodable := by decide +kernel
  have hrefs : (evidenceRefsJson unitResponse.evidence).Encodable := by decide +kernel
  have hdetails : ∃ details, toolAuditDetails passwordRequest ⟨true, []⟩ unitResponse =
      .ok details := by
    unfold toolAuditDetails
    rw [boundJson_of_encodable hparams, boundJson_of_encodable hrefs]
    exact ⟨_, rfl⟩
  obtain ⟨details, hdetails⟩ := hdetails
  obtain ⟨text, hfind, ms, hparse, -⟩ :=
    h Json.parse passwordRequest ⟨true, []⟩ unitResponse details Json.undoes_parse
    ⟨by decide, by decide, by decide⟩ unitResponse_valid hdetails
  obtain ⟨text', refs, htext, -, hfind', -⟩ := find?_jsonDetails hdetails
  obtain rfl : text = text' := Option.some.inj (hfind.symm.trans hfind')
  rw [boundJson_of_encodable hparams] at htext
  obtain rfl := Except.ok.inj htext
  have hunread : Json.parse? (boundString (boundedParamsJson passwordRequest.params).render
      maxAuditJsonBytes) = none := by
    decide +kernel
  rw [Json.parse, hunread] at hparse
  cases hparse

end Kasli.Session
