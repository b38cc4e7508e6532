import Kasli.Kaslid.Agreement
import Kasli.Kaslid.Answered
import Kasli.Kaslid.Disclosure
import Kasli.Tools.ValidBodies

/-! Whether the evidence of a call gets to the client. The record of the call does not show the
bodies of the evidence, so the call is on record before a body that is not well formed
makes the encoding of the reply throw. -/

namespace Kasli.Kaslid

open Core Audit Session Tools Utf8

/-! ### A call whose bodies may be ill formed -/

/-- The response without the bodies of its evidence. -/
def bare (response : ToolResponse) : ToolResponse :=
  { response with evidence := response.evidence.map fun e => { e with body := [] } }

theorem evidenceRefsJson_bare (evidence : List Evidence) :
    evidenceRefsJson (evidence.map fun e => { e with body := [] }) = evidenceRefsJson evidence := by
  have hrefs : ∀ count, evidenceRefs count (evidence.map fun e => { e with body := [] }) =
      evidenceRefs count evidence := by
    induction evidence with
    | nil => exact fun _ => rfl
    | cons e evidence ih =>
      intro count
      rw [List.map_cons, evidenceRefs, evidenceRefs, ih]
      rfl
  rw [evidenceRefsJson, evidenceRefsJson, hrefs]

/-- The record does not show the bodies. -/
theorem toolAuditDetails_bare (request : ToolRequest) (decision : Policy.PolicyDecision)
    (response : ToolResponse) : toolAuditDetails request decision (bare response) =
      toolAuditDetails request decision response := by
  unfold toolAuditDetails
  simp only [bare, evidenceRefsJson_bare, List.length_map]

theorem callClean_bare (request : ToolRequest) (response : ToolResponse) :
    CallClean request (bare response) ↔ CallClean request response := by
  have hrefs : (∀ e ∈ (bare response).evidence.take maxAuditEvidenceRefs, RefClean e) ↔
      ∀ e ∈ response.evidence.take maxAuditEvidenceRefs, RefClean e := by
    simp only [bare, ← List.map_take, List.forall_mem_map]
    exact forall₂_congr fun e _ =>
      ⟨fun ⟨h₁, h₂, h₃, h₄⟩ => ⟨h₁, h₂, h₃, h₄⟩, fun ⟨h₁, h₂, h₃, h₄⟩ => ⟨h₁, h₂, h₃, h₄⟩⟩
  have hjson : evidenceRefsJson (bare response).evidence = evidenceRefsJson response.evidence :=
    evidenceRefsJson_bare response.evidence
  constructor
  · rintro ⟨h₁, h₂, h₃, h₄, h₅, h₆, h₇⟩
    exact ⟨h₁, h₂, h₃, h₄, h₅, hrefs.mp h₆, hjson ▸ h₇⟩
  · rintro ⟨h₁, h₂, h₃, h₄, h₅, h₆, h₇⟩
    exact ⟨h₁, h₂, h₃, h₄, h₅, hrefs.mpr h₆, hjson ▸ h₇⟩

section

variable {service : SessionService} {host : Host} {request : ToolRequest} {response : ToolResponse}
    {σ ex : History}

/-- A call is recorded and returns, or is not recorded and throws, whatever the bodies are. -/
theorem callTool_bare_evaluated (hw : host.Writable) (hrequest : request.Valid)
    (hresponse : (bare response).Valid)
    (hr : (service.respond request).run σ = (ex, .ok response)) :
    (CallClean request response ∧ ∃ call, IsToolCall service request (ascii "cli") response call ∧
      (service.callTool host request (ascii "cli")).run σ =
        (ex ++ [.issued, .appended call], .ok response)) ∨
    (¬ CallClean request response ∧ ∃ what,
      (service.callTool host request (ascii "cli")).run σ =
        (ex ++ [.issued], .error (.std what))) := by
  have hiff := recordable_toolCall (by decide : Valid (ascii "cli")) hrequest
    hresponse service.policy
  rw [toolAuditDetails_bare, callClean_bare] at hiff
  unfold SessionService.callTool
  rw [Run.run_bind_of_ok hr]
  by_cases h : Recordable (ascii "cli") (ascii "tool.call")
    (Session.boundAuditString request.toolName)
    (toolAuditDetails request (service.policy.decide request) response)
  · obtain ⟨d, hd, he⟩ := h
    obtain ⟨call, hcall, hrecord⟩ :=
      record_of_recordable service.audit host _ _ _ _ hw hd he (σ ++ ex)
    refine .inl ⟨hiff.mp ⟨d, hd, he⟩, call, ⟨d, hd, hcall⟩, ?_⟩
    rw [Run.run_bind_of_ok hrecord]
    simp
  · obtain ⟨what, -, hrecord⟩ := record_of_not_recordable service.audit host _ _ _ _ h
      (fun _ => isAscii_of_toolAuditDetails_error) (σ ++ ex)
    exact .inr ⟨fun hclean => h (hiff.mpr hclean), what, by rw [Run.run_bind_of_error hrecord]⟩

end

/-! ### The reply -/

/-- The bodies of the evidence are well formed, and the line is answered with the response of
the tool. -/
def EvidenceSent (parser : Parser) (service : SessionService) (host : Host)
    (model : ModelProvider) (σ : History) (line id : Bytes) (response : ToolResponse) : Prop :=
  (∀ e ∈ response.evidence, Valid e.body) ∧
    ∃ s, (handleRequest parser service host model line).run σ =
      (s, .ok (makeToolCallResponse id response).render)

section

variable {parser : Parser} {service : SessionService} {host : Host} (model : ModelProvider)
  {σ ex : History} {line : Bytes} {json : Json} {request : ToolRequest} {response : ToolResponse}
variable (hw : host.Writable) (hp : parser.parse line = .ok json)
    (hd : decode json = .ok (.call request))
  (hr : (service.respond request).run σ = (ex, .ok response)) (hresponse : (bare response).Valid)

include hw hp hd hr hresponse

/-- The response is sent exactly when the call is recorded and its bodies are well formed. -/
theorem evidenceSent_iff :
    EvidenceSent parser service host model σ line (requestIdOrUnknown json) response ↔
      CallClean request response ∧ ∀ e ∈ response.evidence, Valid e.body := by
  have hj := parser.encodable line json hp
  have hid := valid_requestId hj
  have hrun : (handleRequest parser service host model line).run σ =
      (tryCatch (perform service host model (requestIdOrUnknown json) (.call request))
        (protocolError service.audit host (requestIdOrUnknown json))).run σ := by
    unfold handleRequest
    rw [hp]
    dsimp only
    rw [dispatch_eq, hd, ofExcept_ok, Run.pure_bind]
  unfold EvidenceSent
  rw [hrun, and_comm, and_congr_left_iff]
  intro hbodies
  have hvalid : response.Valid := ⟨hresponse.requestId, hresponse.message, fun e he =>
    have hbare := hresponse.evidence _ (List.mem_map_of_mem he)
    ⟨hbare.id, hbare.source, hbare.summary, hbodies e he, hbare.timestamp⟩⟩
  have hencodable := encodable_callResponse hid hvalid
  rcases callTool_bare_evaluated hw (valid_of_decode hj hd) hresponse hr
    with ⟨hclean, call, -, hcall⟩ | ⟨hclean, what, hcall⟩
  · refine iff_of_true ?_ hclean
    have hperform : (perform service host model (requestIdOrUnknown json) (.call request)).run σ =
        (ex ++ [.issued, .appended call],
          .ok (makeToolCallResponse (requestIdOrUnknown json) response).render) := by
      unfold perform
      rw [Run.run_bind_of_ok hcall, Json.dump_of_encodable hencodable]
      simp
    exact ⟨_, Run.run_tryCatch_of_ok hperform⟩
  · -- the record was not written, and the handler reports an error if anything
    refine iff_of_false ?_ hclean
    rintro ⟨s, hs⟩
    have hperform : (perform service host model (requestIdOrUnknown json) (.call request)).run σ =
        (ex ++ [.issued], .error (.std what)) := Run.run_bind_of_error hcall
    rw [Run.run_tryCatch_of_error hperform] at hs
    obtain ⟨message, hreply⟩ := protocolError_reply host _ (Prod.ext rfl (Prod.mk.inj hs).2)
    exact errorResponse_ne_callResponse hreply.symm

/-- A body that is not well formed is found out only when the call is on record: the encoding of
the reply throws. -/
theorem encoding_fails (hclean : CallClean request response)
    (hbodies : ¬ ∀ e ∈ response.evidence, Valid e.body) :
    ∃ call what, IsToolCall service request (ascii "cli") response call ∧
      (perform service host model (requestIdOrUnknown json) (.call request)).run σ =
        (ex ++ [.issued, .appended call], .error (.std what)) := by
  have hnot : ¬ (makeToolCallResponse (requestIdOrUnknown json) response).Encodable := by
    intro he
    rw [makeToolCallResponse, Json.encodable_ofPairs (by simp only [List.map]; decide)] at he
    simp only [List.forall_mem_cons] at he
    have htoJson := he.2.2.1.2
    rw [ToolResponse.toJson, Json.encodable_ofPairs (by simp only [List.map]; decide)] at htoJson
    simp only [List.forall_mem_cons, Json.encodable_array, List.forall_mem_map] at htoJson
    refine hbodies fun e hmem => ?_
    have hevidence := htoJson.2.2.2.1.2 e hmem
    rw [Evidence.toJson, Json.encodable_ofPairs (by simp only [List.map]; decide)] at hevidence
    simp only [List.forall_mem_cons, Json.encodable_string] at hevidence
    exact hevidence.2.2.2.1.2
  rcases callTool_bare_evaluated hw
    (valid_of_decode (parser.encodable line json hp) hd) hresponse hr
    with ⟨-, call, hcall, hrun⟩ | ⟨hn, -⟩
  swap
  · exact absurd hclean hn
  rcases dump_evaluated (makeToolCallResponse (requestIdOrUnknown json) response)
    (σ ++ (ex ++ [.issued, .appended call])) with ⟨he, -⟩ | ⟨-, what, -, hdump⟩
  · exact absurd he hnot
  · refine ⟨call, what, hcall, ?_⟩
    unfold perform
    rw [Run.run_bind_of_ok hrun, hdump]
    simp

end

/-! ### Bodies that the tools build -/

/-- The line calls a tool that answers with the bodies of `inputs`; all strings are well formed. -/
structure Answers (parser : Parser) (service : SessionService) (σ : History)
    (line : Bytes) (json : Json)
    (request : ToolRequest) (response : ToolResponse) (inputs : List BodyInput) : Prop where
  parsed : parser.parse line = .ok json
  decoded : decode json = .ok (.call request)
  responds : ∃ ex, (service.respond request).run σ = (ex, .ok response)
  framed : (bare response).Valid
  strings : ∀ input ∈ inputs, input.ValidStrings
  bodies : List.Forall₂ (fun e input => input.format = some e.body) response.evidence inputs

theorem valid_bodies_iff {evidence : List Evidence} {inputs : List BodyInput}
    (hstrings : ∀ input ∈ inputs, input.ValidStrings)
    (hbodies : List.Forall₂ (fun e input => input.format = some e.body) evidence inputs) :
    (∀ e ∈ evidence, Valid e.body) ↔ ∀ input ∈ inputs, input.Clean := by
  induction hbodies with
  | nil => simp
  | cons hbody _ ih =>
    rw [List.forall_mem_cons] at hstrings
    rw [List.forall_mem_cons, List.forall_mem_cons, ih hstrings.2,
      BodyInput.valid_body_iff hstrings.1 hbody]

/-- A body is well formed exactly when its text is not cut inside a character, and a call is
answered with the response of its tool exactly when, besides, no string of its record is. -/
theorem evidence_sent_iff (input : BodyInput) :
    (input.ValidStrings → ∃ body, input.format = some body ∧ (Valid body ↔ input.Clean)) ∧
    ∀ (parser : Parser) (service : SessionService) (host : Host)
      (model : ModelProvider) (σ : History)
      (line : Bytes) (json : Json) (request : ToolRequest) (response : ToolResponse)
        (inputs : List BodyInput),
      host.Writable → Answers parser service σ line json request response inputs →
      (EvidenceSent parser service host model σ line (requestIdOrUnknown json) response ↔
        CallClean request response ∧ ∀ input ∈ inputs, input.Clean) := by
  constructor
  · exact fun h => ⟨_, input.format_eq, BodyInput.valid_body_iff h input.format_eq⟩
  · intro parser service host model σ line json request response inputs hw h
    obtain ⟨ex, hr⟩ := h.responds
    rw [← valid_bodies_iff h.strings h.bodies]
    exact evidenceSent_iff model hw h.parsed h.decoded hr h.framed

def packagesRequest : ToolRequest :=
  { id := ascii "r1", toolName := ascii "packages.list", risk := .readOnly, params := .empty }

def bash : Package.PackageListRow :=
  { name := ascii "bash", epoch := ascii "0", version := ascii "5.2", release := ascii "1.fc40",
    arch := ascii "x86_64", installTime := ascii "1714521600", source := ascii "rpmdb" }

/-- The answer of a host with one package. -/
def packagesResponse : ToolResponse :=
  okResponse packagesRequest (ascii "packages.list") (ascii "installed packages listed")
    (ascii "bounded installed package list")
    (ascii ("packages_count=1\nname=bash epoch=0 version=5.2 release=1.fc40 arch=x86_64 " ++
      "install_time=1714521600 source=rpmdb\n"))
    (ascii "2026-01-01T00:00:00Z")

def packagesService : SessionService :=
  singleService (constantTool (ascii "packages.list") packagesResponse)

theorem packagesRequest_valid : packagesRequest.Valid := ⟨by decide, by decide, by decide⟩

theorem packagesResponse_framed : (bare packagesResponse).Valid := by
  refine ⟨by decide, by decide, ?_⟩
  simp only [bare, packagesResponse, okResponse, List.map_cons, List.map_nil,
    List.forall_mem_singleton]
  exact ⟨by decide, by decide, by decide, by decide, by decide⟩

theorem packagesResponse_bodies :
    List.Forall₂ (fun e input => BodyInput.format input = some e.body) packagesResponse.evidence
      [.packageList [bash] false] :=
  .cons (by decide +kernel) .nil

theorem packagesInput_validStrings : (BodyInput.packageList [bash] false).ValidStrings :=
  show ∀ s ∈ [bash].flatMap Package.PackageListRow.strings, Valid s by decide

theorem respond_packages : (packagesService.respond packagesRequest).run [] =
    ([.executed (ascii "packages.list") packagesRequest], .ok packagesResponse) :=
  respond_constantTool packagesResponse packagesRequest rfl []

theorem answers_packages : Answers jsonParser packagesService []
    (makeToolCallRequest (ascii "7") packagesRequest).render
    (makeToolCallRequest (ascii "7") packagesRequest) packagesRequest packagesResponse
      [.packageList [bash] false] :=
  ⟨parse_toolCallRequest (by decide) packagesRequest_valid, decode_toolCallRequest (by decide),
    ⟨_, respond_packages⟩, packagesResponse_framed,
    List.forall_mem_singleton.mpr packagesInput_validStrings, packagesResponse_bodies⟩

theorem evidence_sent_bash :
    (∃ body, (BodyInput.packageList [bash] false).format = some body ∧
      (Valid body ↔ (BodyInput.packageList [bash] false).Clean)) ∧
    (EvidenceSent jsonParser packagesService stillHost (constantModel []) []
        (makeToolCallRequest (ascii "7") packagesRequest).render
        (requestIdOrUnknown (makeToolCallRequest (ascii "7") packagesRequest)) packagesResponse ↔
      CallClean packagesRequest packagesResponse ∧
        ∀ input ∈ [BodyInput.packageList [bash] false], input.Clean) :=
  ⟨(evidence_sent_iff (.packageList [bash] false)).1 packagesInput_validStrings,
    (evidence_sent_iff (.packageList [bash] false)).2 _ _ _ _ _ _ _ _ _ _ (fun _ _ =>
      rfl) answers_packages⟩

/-! ### A message that is cut -/

def messageEntry (message : Bytes) : Json :=
  .object [(ascii "MESSAGE", .string message), (ascii "PRIORITY", .string (ascii "4")),
    (ascii "_SYSTEMD_UNIT", .string (ascii "ssh.service"))]

/-- A fixture of one entry. -/
def messageFixture (message : Bytes) : BodyInput :=
  .journalFixture (fun line => (Json.parse line).toOption) (ascii "ssh.service")
    [(messageEntry message).render]

section

variable {message : Bytes}

theorem messageFixture_strings : (messageFixture message).ValidStrings := by
  intro line _ json hjson
  dsimp only at hjson
  cases hparse : Json.parse line with
  | error what => rw [hparse] at hjson; cases hjson
  | ok json' =>
    rw [hparse] at hjson
    exact Option.some.inj hjson ▸ Json.encodable_of_parse hparse

theorem parse_messageEntry (hm : Valid message) :
    Json.parse (messageEntry message).render = .ok (messageEntry message) := by
  have hkeys : ∀ k ∈ ["MESSAGE", "PRIORITY", "_SYSTEMD_UNIT", "4", "ssh.service"],
    Valid (ascii k) := by decide
  simp only [List.forall_mem_cons] at hkeys
  refine Json.undoes_parse (messageEntry message) ?_ ?_
  · refine ⟨by simp only [List.pairwise_cons]; decide, ?_⟩
    simp [Json.WrittenMembers, Json.Written]
  · rw [messageEntry, Json.encodable_object]
    simp [hkeys, hm]

theorem messageFixture_text (hm : Valid message) (hself : redactLikelySecret message = message) :
    (messageFixture message).fullText = ascii "4 " ++ message ++ ascii "\n" := by
  have hentry : Journal.entryOf (fun line => (Json.parse line).toOption)
    (messageEntry message).render =
      some (messageEntry message) := by
    rw [Journal.entryOf, parse_messageEntry hm]
    rfl
  have hunit : Journal.jsonStringValue (messageEntry message) (ascii "_SYSTEMD_UNIT") =
    ascii "ssh.service" := rfl
  have hmessage : Journal.jsonStringValue (messageEntry message) (ascii "MESSAGE") = message := rfl
  have hpriority : Journal.jsonStringValue (messageEntry message) (ascii "PRIORITY") =
    ascii "4" := rfl
  rw [messageFixture, BodyInput.fullText, Journal.fixtureText, hentry]
  simp only [hunit, ne_eq, not_true_eq_false, if_false]
  rw [if_neg (by decide), Journal.fixtureLine, hmessage, hpriority, hself]
  simp only [Journal.fixtureText, Nat.lt_irrefl, if_false, List.append_nil]
  rfl

end

/-- The body of the journal may end inside a character; then the reply cannot be encoded. -/
theorem evidence_cut : ¬ ∀ input : BodyInput, input.ValidStrings →
    ∀ body, input.format = some body → Valid body := by
  intro h
  have hvalid := h (messageFixture (accentAt 16366 100)) messageFixture_strings _
    (BodyInput.format_eq _)
  have hclean := (BodyInput.valid_body_iff messageFixture_strings (BodyInput.format_eq _)).mp hvalid
  have htext := messageFixture_text (accentAt_valid 16366 100)
    (redactLikelySecret_eq_self (notMem_accentAt _ _ (by decide)) (notMem_accentAt _ _ (by decide)))
  have hlong : (messageFixture (accentAt 16366 100)).cap <
      (messageFixture (accentAt 16366 100)).fullText.length := by
    rw [htext, List.length_append, List.length_append, length_accentAt]
    decide
  have hopen : (messageFixture (accentAt 16366 100)).fullText[16369]? = some 0xA9 := by
    rw [htext, List.append_assoc, List.getElem?_append_right (by decide), accentAt,
      List.append_assoc, List.getElem?_append_right (by rw [List.length_replicate]; decide),
      List.length_replicate]
    rfl
  exact absurd (hclean hlong 0xA9 hopen) (by decide)

end Kasli.Kaslid
