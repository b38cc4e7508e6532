import Kasli.Session.SessionService

/-! When the records of a session can be written. All strings being well-formed UTF-8,
a record of a call or an ask can be encoded exactly when none of its bounded strings is
cut inside a character. From this follows when a call returns its response and an ask
its answer, the audit file being writable. -/

namespace Kasli.Session

open Core Policy Audit Tools Utf8

/-- The details of a record, given as a list with distinct ASCII keys. -/
theorem encodable_ofList {actor type summary : Bytes} {l : List (Bytes × Bytes)}
    (hnodup : (l.map Prod.fst).Nodup) (hkeys : ∀ k ∈ l.map Prod.fst, IsAscii k) :
    Content.Encodable ⟨actor, type, summary, .ofList l⟩ ↔
      Valid actor ∧ Valid type ∧ Valid summary ∧ ∀ e ∈ l, Valid e.2 := by
  constructor
  · rintro ⟨ha, ht, hs, hd⟩
    exact ⟨ha, ht, hs, fun e he => (hd e ((OrderedMap.mem_entries_ofList hnodup).mpr he)).2⟩
  · rintro ⟨ha, ht, hs, hd⟩
    refine ⟨ha, ht, hs, fun e he => ?_⟩
    have hmem := OrderedMap.mem_of_mem_ofList he
    exact ⟨valid_of_isAscii (hkeys _ (List.mem_map_of_mem hmem)), hd e hmem⟩

/-! ### Details that cannot be computed -/

theorem isAscii_of_refs_error {evidence : List Evidence}
    {l : Bytes → OrderedMap Bytes Bytes} {what : Bytes}
    (h : (do let refs ← boundJson (evidenceRefsJson evidence); return l refs : Except Bytes _) =
      .error what) : IsAscii what := by
  cases hb : boundJson (evidenceRefsJson evidence) with
  | error what' =>
    rw [hb] at h
    exact Except.error.inj h ▸ isAscii_of_boundJson_error hb
  | ok refs =>
    rw [hb] at h
    cases h

theorem isAscii_of_toolAuditDetails_error {request : ToolRequest} {decision : PolicyDecision}
    {response : ToolResponse} {what : Bytes}
    (h : toolAuditDetails request decision response = .error what) : IsAscii what := by
  unfold toolAuditDetails at h
  cases hp : boundJson (boundedParamsJson request.params) with
  | error what' =>
    rw [hp] at h
    exact Except.error.inj h ▸ isAscii_of_boundJson_error hp
  | ok params =>
    rw [hp] at h
    exact isAscii_of_refs_error h

/-! ### Clean records -/

/-- No reference to the evidence, nor their text, is cut inside a character. -/
structure EvidenceClean (evidence : List Evidence) : Prop where
  refs : ∀ e ∈ evidence.take maxAuditEvidenceRefs, RefClean e
  json : CutsClean (evidenceRefsJson evidence).render maxAuditJsonBytes

/-- Evidence whose references are ASCII. -/
theorem evidenceClean_of_isAscii {evidence : List Evidence} (h : ∀ e ∈ evidence, IsAscii e.id ∧
    IsAscii e.source ∧ IsAscii e.summary ∧ IsAscii e.timestamp) : EvidenceClean evidence where
  refs e he := by
    obtain ⟨hid, hsource, hsummary, htimestamp⟩ := h e (List.mem_of_mem_take he)
    exact ⟨cutsClean_of_isAscii hid _, cutsClean_of_isAscii hsource _,
      cutsClean_of_isAscii hsummary _, cutsClean_of_isAscii htimestamp _⟩
  json := by
    refine cutsClean_of_isAscii (Json.isAscii_render (each_evidenceRefsJson id fun e he => ?_)) _
    obtain ⟨hid, hsource, hsummary, htimestamp⟩ := h e he
    exact ⟨isAscii_boundAuditString hid, isAscii_boundAuditString hsource,
      isAscii_boundAuditString hsummary, isAscii_boundAuditString htimestamp⟩

/-- No string in the record of a call is cut inside a character. -/
structure CallClean (request : ToolRequest) (response : ToolResponse) : Prop where
  id : CutsClean request.id maxAuditStringBytes
  toolName : CutsClean request.toolName maxAuditStringBytes
  params : ∀ e ∈ request.params.entries, CutsClean e.2 maxAuditParamValueBytes
  paramsJson : CutsClean (boundedParamsJson request.params).render maxAuditJsonBytes
  message : CutsClean response.message maxAuditStringBytes
  evidence : EvidenceClean response.evidence

section

variable {actor prompt : Bytes} {request : ToolRequest} {response : ToolResponse}
  {evidence : List Evidence}

/-- The bounded text of a value is there and well formed exactly when the value is encodable and its
text not cut inside a character. -/
theorem boundJson_valid_iff {value : Json} : (∃ t, boundJson value = .ok t ∧ Valid t) ↔
    value.Encodable ∧ CutsClean value.render maxAuditJsonBytes := by
  constructor
  · rintro ⟨t, ht, hv⟩
    by_cases he : value.Encodable
    · rw [boundJson_of_encodable he] at ht
      obtain rfl := Except.ok.inj ht
      exact ⟨he, (valid_boundString_render he).mp hv⟩
    · obtain ⟨what, hb, -⟩ := boundJson_of_not_encodable he
      rw [hb] at ht
      cases ht
  · rintro ⟨he, hc⟩
    exact ⟨_, boundJson_of_encodable he, (valid_boundString_render he).mpr hc⟩

theorem boundJson_evidence_iff (h : ∀ e ∈ evidence, e.Valid) :
    (∃ t, boundJson (evidenceRefsJson evidence) = .ok t ∧ Valid t) ↔ EvidenceClean evidence := by
  rw [boundJson_valid_iff, encodable_evidenceRefsJson h]
  exact ⟨fun ⟨h₁, h₂⟩ => ⟨h₁, h₂⟩, fun ⟨h₁, h₂⟩ => ⟨h₁, h₂⟩⟩

theorem boundJson_params_iff (h : request.Valid) :
    (∃ t, boundJson (boundedParamsJson request.params) = .ok t ∧ Valid t) ↔
      (∀ e ∈ request.params.entries, CutsClean e.2 maxAuditParamValueBytes) ∧
        CutsClean (boundedParamsJson request.params).render maxAuditJsonBytes := by
  rw [boundJson_valid_iff, encodable_boundedParamsJson h.params]

theorem valid_decimal (n : ℕ) : Valid (decimal n) := valid_of_isAscii (isAscii_decimal n)

theorem valid_toolStatus (status : ToolStatus) : Valid status.toString :=
  valid_of_isAscii (isAscii_toolStatus status)

theorem valid_riskClass (risk : RiskClass) : Valid risk.toString :=
  valid_of_isAscii (isAscii_riskClass risk)

theorem valid_boundAuditString_reason (policy : PolicyBroker) (request : ToolRequest) :
    Valid (boundAuditString (policy.decide request).reason) := by
  unfold PolicyBroker.decide
  split
  · decide +kernel
  · split_ifs
    · decide +kernel
    · decide +kernel

/-- A call can be recorded exactly when its record is cut cleanly. -/
theorem recordable_toolCall (hactor : Valid actor) (hrequest : request.Valid)
    (hresponse : response.Valid) (policy : PolicyBroker) :
    Recordable actor (ascii "tool.call") (boundAuditString request.toolName)
      (toolAuditDetails request (policy.decide request) response) ↔ CallClean request response := by
  have htype : Valid (ascii "tool.call") := by decide
  have hallowed : ∀ b : Bool, Valid (ascii (if b then "true" else "false")) := by decide
  have hid := valid_boundAuditString hrequest.id
  have hname := valid_boundAuditString hrequest.toolName
  have hmessage := valid_boundAuditString hresponse.message
  have hreason := valid_boundAuditString_reason policy request
  have hparams := boundJson_params_iff hrequest
  have hrefs := boundJson_evidence_iff hresponse.evidence
  unfold Recordable toolAuditDetails
  constructor
  · rintro ⟨d, hd, he⟩
    cases hp : boundJson (boundedParamsJson request.params) with
    | error what => rw [hp] at hd; cases hd
    | ok params =>
      rw [hp] at hd
      cases hr : boundJson (evidenceRefsJson response.evidence) with
      | error what => rw [hr] at hd; cases hd
      | ok refs =>
        rw [hr] at hd
        obtain rfl := Except.ok.inj hd
        rw [encodable_ofList (by simp only [List.map]; decide)
          (by simp only [List.map]; decide)] at he
        simp only [List.forall_mem_cons] at he
        obtain ⟨-, -, hn, h₁, -, -, h₂, -, -, -, h₃, -, h₄, -, -⟩ := he
        obtain ⟨hpv, hpj⟩ := hparams.mp ⟨params, hp, h₂⟩
        exact ⟨hid.mp h₁, hname.mp hn, hpv, hpj, hmessage.mp h₃, hrefs.mp ⟨refs, hr, h₄⟩⟩
  · intro h
    obtain ⟨params, hp, hpv⟩ := hparams.mpr ⟨h.params, h.paramsJson⟩
    obtain ⟨refs, hr, hrv⟩ := hrefs.mpr h.evidence
    rw [hp, hr]
    refine ⟨_, rfl, ?_⟩
    rw [encodable_ofList (by simp only [List.map]; decide) (by simp only [List.map]; decide)]
    simp only [List.forall_mem_cons, List.not_mem_nil, false_imp_iff, implies_true, and_true]
    exact ⟨hactor, htype, hname.mpr h.toolName, hid.mpr h.id, hname.mpr h.toolName,
      valid_riskClass _, hpv, hallowed _, hreason, valid_toolStatus _, hmessage.mpr h.message,
      valid_decimal _, hrv, valid_toolStatus _⟩

/-- With clean evidence, details that hold its references are there, and the references well
formed. -/
theorem recordable_refs (actor type summary : Bytes) (hevidence : ∀ e ∈ evidence, e.Valid)
    (hclean : EvidenceClean evidence) (details : Except Bytes (OrderedMap Bytes Bytes))
    {l : Bytes → List (Bytes × Bytes)}
    (hdetails : ∀ refs, boundJson (evidenceRefsJson evidence) = .ok refs →
      details = .ok (.ofList (l refs))) :
    ∃ refs, Valid refs ∧ (Recordable actor type summary details ↔
      Content.Encodable ⟨actor, type, summary, .ofList (l refs)⟩) := by
  obtain ⟨refs, hr, hv⟩ := (boundJson_evidence_iff hevidence).mpr hclean
  refine ⟨refs, hv, ?_⟩
  rw [Recordable, hdetails refs hr]
  constructor
  · rintro ⟨d, hd, he⟩
    exact Except.ok.inj hd ▸ he
  · exact fun he => ⟨_, rfl, he⟩

variable (hactor : Valid actor) (hrequest : request.Valid) (hresponse : response.Valid)
  (hprompt : Valid prompt) (hclean : CallClean request response)

include hactor hrequest hresponse hprompt hclean

/-- After a recorded call, that the model is skipped is recorded when the prompt is cut cleanly. -/
theorem recordable_modelSkipped :
    Recordable actor (ascii "model.skipped") (boundAuditString prompt)
      (skippedDetails prompt request response) ↔ CutsClean prompt maxAuditStringBytes := by
  obtain ⟨refs, hv, hiff⟩ := recordable_refs actor (ascii "model.skipped") (boundAuditString prompt)
    hresponse.evidence hclean.evidence (skippedDetails prompt request response) (l := fun refs => _)
    (fun refs hr => by unfold skippedDetails; rw [hr]; rfl)
  rw [hiff, encodable_ofList (by simp only [List.map]; decide) (by simp only [List.map]; decide),
    ← valid_boundAuditString hprompt]
  have htype : Valid (ascii "model.skipped") := by decide
  have hid := (valid_boundAuditString hrequest.id).mpr hclean.id
  have hmessage := (valid_boundAuditString hresponse.message).mpr hclean.message
  simp [hactor, htype, hid, hmessage, hv, valid_toolStatus, valid_decimal]

/-- The same for what the model is about to be asked. -/
theorem recordable_modelRequest :
    Recordable actor (ascii "model.request") (boundAuditString prompt)
      (modelContextDetails prompt request response.evidence) ↔
        CutsClean prompt maxAuditStringBytes := by
  obtain ⟨refs, hv, hiff⟩ := recordable_refs actor (ascii "model.request") (boundAuditString prompt)
    hresponse.evidence hclean.evidence (modelContextDetails prompt request response.evidence)
      (l := fun refs => _)
    (fun refs hr => by unfold modelContextDetails; rw [hr]; rfl)
  rw [hiff, encodable_ofList (by simp only [List.map]; decide) (by simp only [List.map]; decide),
    ← valid_boundAuditString hprompt]
  have htype : Valid (ascii "model.request") := by decide
  have hid := (valid_boundAuditString hrequest.id).mpr hclean.id
  simp [hactor, htype, hid, hv, valid_decimal]

/-- A model error is recorded when its text is well formed. -/
theorem recordable_modelError (hcut : CutsClean prompt maxAuditStringBytes) (error : Bytes) :
    Recordable actor (ascii "model.error") (boundAuditString prompt)
      (modelErrorDetails prompt request error response.evidence) ↔ Valid error := by
  obtain ⟨refs, hv, hiff⟩ := recordable_refs actor (ascii "model.error") (boundAuditString prompt)
    hresponse.evidence hclean.evidence (modelErrorDetails prompt request error response.evidence)
      (l := fun refs => _)
    (fun refs hr => by unfold modelErrorDetails; rw [hr]; rfl)
  rw [hiff, encodable_ofList (by simp only [List.map]; decide) (by simp only [List.map]; decide)]
  have htype : Valid (ascii "model.error") := by decide
  have hid := (valid_boundAuditString hrequest.id).mpr hclean.id
  have hp := (valid_boundAuditString hprompt).mpr hcut
  simp [hactor, htype, hid, hp, hv, valid_decimal]

omit hresponse hprompt in
/-- An answer is recorded when its preview is well formed. -/
theorem recordable_modelResponse (answer : Bytes) :
    Recordable actor (ascii "model.response") (ascii "model response received")
      (.ok (answerDetails request answer)) ↔ Valid (boundAuditString answer) := by
  have htype : Valid (ascii "model.response") := by decide
  have hsummary : Valid (ascii "model response received") := by decide
  have hok : Valid (ascii "ok") := by decide
  have hid := (valid_boundAuditString hrequest.id).mpr hclean.id
  have hiff : Recordable actor (ascii "model.response") (ascii "model response received")
      (.ok (answerDetails request answer)) ↔
      Content.Encodable ⟨actor, ascii "model.response", ascii "model response received",
        answerDetails request answer⟩ :=
    ⟨fun ⟨d, hd, he⟩ => Except.ok.inj hd ▸ he, fun he => ⟨_, rfl, he⟩⟩
  rw [hiff, answerDetails,
    encodable_ofList (by simp only [List.map]; decide) (by simp only [List.map]; decide)]
  simp [hactor, htype, hsummary, hok, hid, valid_decimal]

end

end Kasli.Session
