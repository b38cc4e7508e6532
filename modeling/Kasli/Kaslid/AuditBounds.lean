import Kasli.Core.RedactFirst
import Kasli.Core.RedactTwice
import Kasli.Kaslid.Agreement
import Kasli.Kaslid.Answered
import Kasli.Kaslid.Disclosure

/-! Two bounds of audit strings. The session redacts a string before it cuts it, the daemon cuts
the strings of its own records as they are. So what the daemon writes about a line that it rejects
is what the session would have written exactly when redaction changes nothing of it. -/

namespace Kasli.Kaslid

open Core Audit Session Tools Utf8 Regex

/-! ### One string -/

/-- Redaction changes nothing of what is kept of the string: all of it, or its first bytes and
that there is more than can be kept. -/
def NothingToRedact (value : Bytes) : Prop :=
  if value.length ≤ maxAuditStringBytes then ∀ R ∈ rules, R.Settled value
  else maxAuditStringBytes < (redactLikelySecret value).length ∧
    value.take (maxAuditStringBytes - marker.length) <+: redactLikelySecret value

theorem marker_plain : ∀ k ∈ [wordKind, runKind, runKind, quotedKind],
    (∀ a ∈ marker, k.holds a) ∧ ∀ a ∈ marker, k.opens a = false := by
  simp only [List.forall_mem_cons]
  exact ⟨by decide, by decide, by decide, by decide, by simp⟩

/-- A text that ends with the marker of a cut does not become longer and keep all before that. -/
theorem redact_not_grown {x y : Bytes} (h : redactLikelySecret (x ++ marker) = x ++ y) :
    y.length ≤ marker.length := by
  rcases redacts_redactLikelySecret (x ++ marker) with heq | ⟨k, hk, hchanges⟩
  · rw [h, List.append_cancel_left_eq] at heq
    rw [heq]
  · rw [h] at hchanges
    obtain ⟨hholds, hopens⟩ := marker_plain k hk
    exact hchanges.not_grown hholds hopens (by decide)

/-- No text becomes one that ends with the marker of a cut and is the same before that. -/
theorem redact_not_cut {x y : Bytes} (h : redactLikelySecret (x ++ y) = x ++ marker) :
    y = marker := by
  rcases redacts_redactLikelySecret (x ++ y) with heq | ⟨k, hk, hchanges⟩
  · rw [h, List.append_cancel_left_eq] at heq
    exact heq.symm
  · rw [h] at hchanges
    refine (hchanges.not_cut (by decide) (fun a ha => ?_) (by decide)).elim
    obtain ⟨hholds, -⟩ := marker_plain k hk
    refine ⟨hholds a (List.mem_of_mem_head? ha), ?_⟩
    obtain rfl : chr '.' = a := Option.some.inj ha
    decide

theorem boundAuditString_of_lt {value : Bytes} (h : maxAuditStringBytes < value.length) :
    boundAuditString value = value.take (maxAuditStringBytes - marker.length) ++ marker :=
  if_neg (by rw [maxAuditStringBytes] at h; omega)

/-- A string that redaction makes too long is not what the session writes of it. -/
theorem ne_cut_of_grown {value : Bytes}
    (h : maxAuditStringBytes < (redactLikelySecret value).length) : value ≠
      (redactLikelySecret value).take (maxAuditStringBytes - marker.length) ++ marker := by
  intro heq
  have hmax : marker.length < maxAuditStringBytes := by decide
  have hsplit := List.take_append_drop (maxAuditStringBytes - marker.length)
    (redactLikelySecret value)
  have hle := redact_not_grown ((congrArg redactLikelySecret heq).symm.trans hsplit.symm)
  rw [List.length_drop] at hle
  omega

/-- What the daemon writes of a long string is not its redaction. -/
theorem cut_ne_of_long {value : Bytes} (h : maxAuditStringBytes < value.length) :
    value.take (maxAuditStringBytes - marker.length) ++ marker ≠ redactLikelySecret value := by
  intro heq
  have hmax : marker.length < maxAuditStringBytes := by decide
  have hsplit := List.take_append_drop (maxAuditStringBytes - marker.length) value
  have hlength := congrArg List.length
    (redact_not_cut ((congrArg redactLikelySecret hsplit).trans heq.symm))
  rw [List.length_drop] at hlength
  omega

/-- The bounds agree on a string exactly when nothing of it is redacted. -/
theorem boundAuditString_eq_iff (value : Bytes) :
    boundAuditString value = Session.boundAuditString value ↔ NothingToRedact value := by
  have hmax : marker.length < maxAuditStringBytes := by decide
  rw [Session.boundAuditString, NothingToRedact]
  by_cases hvalue : value.length ≤ maxAuditStringBytes
  · rw [if_pos hvalue, show boundAuditString value = value from if_pos hvalue]
    by_cases hr : (redactLikelySecret value).length ≤ maxAuditStringBytes
    · rw [boundString_of_le hr, ← redactLikelySecret_eq_self_iff]
      exact eq_comm
    · rw [boundString_of_lt hmax (by omega)]
      refine iff_of_false (ne_cut_of_grown (by omega)) fun h => ?_
      rw [redactLikelySecret_eq_self_iff.mpr h] at hr
      exact hr hvalue
  · rw [if_neg hvalue, boundAuditString_of_lt (by omega)]
    by_cases hr : (redactLikelySecret value).length ≤ maxAuditStringBytes
    · rw [boundString_of_le hr]
      exact iff_of_false (cut_ne_of_long (by omega)) fun h => absurd h.1 (by omega)
    · have hcut : (value.take (maxAuditStringBytes - marker.length)).length =
          maxAuditStringBytes - marker.length := by
        rw [List.length_take]
        omega
      rw [boundString_of_lt hmax (by omega), List.append_left_inj, List.prefix_iff_eq_take, hcut]
      exact (and_iff_right (by omega)).symm

/-- A short text without `=` and `:` has nothing to redact. -/
theorem nothingToRedact_of_plain {value : Bytes} (he : chr '=' ∉ value) (hc : chr ':' ∉ value)
    (h : value.length ≤ maxAuditStringBytes) : NothingToRedact value := by
  rw [NothingToRedact, if_pos h]
  exact redactLikelySecret_eq_self_iff.mp (redactLikelySecret_eq_self he hc)

/-! ### What is reported of a line -/

/-- The content of the record that `audit_protocol_error` writes. -/
def protocolReport (id message : Bytes) : Content :=
  ⟨ascii "cli", ascii "protocol.error", boundAuditString message,
    .ofList [(ascii "request_id", boundAuditString id)]⟩

theorem appended_protocolError (audit : AuditLog) (host : Host) (id message : Bytes) :
    Run.Only (fun a => ∀ event, a = .appended event → content event = protocolReport id message)
      (auditProtocolError audit host id message) := by
  refine record_only audit host _ _ _ _ (fun _ h => by cases h) fun event d hd hc event' he => ?_
  obtain rfl := Action.appended.inj he
  rw [hc, ← Except.ok.inj hd]
  rfl

variable (parser : Parser) (service : SessionService) (host : Host) (model : ModelProvider)
  (σ : History) (input : Bytes)

/-- The id and the message that are handed to `audit_protocol_error`: what the parser says, what
is thrown afterwards, and that there is no such method. -/
inductive Reported : Bytes → Bytes → Prop
  | unparsed {what : Bytes} (hparse : parser.parse input = .error what) : Reported unknownId what
  | thrown {request : Json} {s : History} {what : Bytes} (hparse : parser.parse input = .ok request)
      (hrun : (dispatch service host model (requestIdOrUnknown request) request).run σ =
        (s, .error (.std what))) : Reported (requestIdOrUnknown request) what
  | stray {request : Json} (hparse : parser.parse input = .ok request)
      (hdecode : decode request = .ok .other) :
      Reported (requestIdOrUnknown request) (ascii "unknown method")

/-- The strings of the event are those that the session would have written. -/
def AsSession (event : AuditEvent) (id message : Bytes) : Prop :=
  event.summary = Session.boundAuditString message ∧
    event.details = .ofList [(ascii "request_id", Session.boundAuditString id)]

/-- The session would have written all strings of what is reported of a rejected line. -/
def ReportsAsSession : Prop :=
  Rejected parser input →
    ∀ event ∈ events ((handleRequest parser service host model input).run σ).1, ∀ id message,
      Reported parser service host model σ input id message →
        content event = protocolReport id message → AsSession event id message

section

variable {parser service host model σ input} {event : AuditEvent}

theorem content_of_protocolError {audit : AuditLog} {id what : Bytes}
    (h : event ∈ events ((protocolError audit host id (.std what)).run σ).1) :
    content event = protocolReport id what := by
  have honly := (appended_protocolError audit host id what).bind fun _ =>
    only_dump (makeErrorResponse id what)
  exact honly σ _ (mem_events.mp h) event rfl

/-- Before the catch clause only a method that there is not is reported. -/
theorem reported_of_dispatch {request : Json} (hparse : parser.parse input = .ok request)
    (h : Rejected parser input)
    (he : event ∈ events
      ((dispatch service host model (requestIdOrUnknown request) request).run σ).1) :
    ∃ id message, Reported parser service host model σ input id message ∧
      content event = protocolReport id message := by
  rw [dispatch_eq] at he
  rw [Rejected, hparse] at h
  dsimp only at h
  cases hdecode : decode request with
  | error what =>
    rw [hdecode] at he
    cases he
  | ok command =>
    rw [hdecode] at h he
    rw [ofExcept_ok, Run.pure_bind] at he
    cases command with
    | other =>
      have honly := (appended_protocolError service.audit host (requestIdOrUnknown request)
        (ascii "unknown method")).bind fun _ =>
          only_dump (makeErrorResponse (requestIdOrUnknown request) (ascii "unknown method"))
      exact ⟨_, _, .stray hparse hdecode, honly σ _ (mem_events.mp he) event rfl⟩
    | _ => exact h.elim

/-- A rejected line leaves reports only. -/
theorem reported_of_rejected (h : Rejected parser input)
    (he : event ∈ events ((handleRequest parser service host model input).run σ).1) :
    ∃ id message, Reported parser service host model σ input id message ∧
      content event = protocolReport id message := by
  unfold handleRequest at he
  cases hparse : parser.parse input with
  | error what =>
    rw [hparse] at he
    exact ⟨_, _, .unparsed hparse, content_of_protocolError he⟩
  | ok request =>
    rw [hparse] at he
    dsimp only at he
    rcases hrun : (tryCatch (dispatch service host model (requestIdOrUnknown request) request)
      (protocolError service.audit host (requestIdOrUnknown request))).run σ with ⟨s, r⟩
    rw [hrun] at he
    rcases Run.tryCatch_cases hrun with ⟨reply, hdispatch, -⟩ | ⟨s₁, e, s₂, hdispatch, hcatch, rfl⟩
    · exact reported_of_dispatch hparse h (by rwa [hdispatch])
    · rw [events_append, List.mem_append] at he
      rcases he with he | he
      · exact reported_of_dispatch hparse h (by rwa [hdispatch])
      · cases e with
        | std what =>
          exact ⟨_, _, .thrown hparse hdispatch, content_of_protocolError (by rwa [hcatch])⟩
        | other =>
          obtain ⟨rfl, -⟩ := Prod.mk.inj hcatch
          cases he

/-- A rejected line leaves reports only, and the strings of a report are those that the session
would have written exactly when there is nothing to redact in them. -/
theorem reports_redacted_iff (h : Rejected parser input)
    (he : event ∈ events ((handleRequest parser service host model input).run σ).1) :
    (∃ id message, Reported parser service host model σ input id message ∧
      content event = protocolReport id message) ∧
    ∀ id message, content event = protocolReport id message →
      (AsSession event id message ↔ NothingToRedact message ∧ NothingToRedact id) := by
  refine ⟨reported_of_rejected h he, fun id message hcontent => ?_⟩
  have hsummary : event.summary = boundAuditString message := congrArg Content.summary hcontent
  have hdetails : event.details = .ofList [(ascii "request_id", boundAuditString id)] :=
    congrArg Content.details hcontent
  have hsingle {a b : Bytes} : (OrderedMap.ofList [(ascii "request_id", a)] =
      OrderedMap.ofList [(ascii "request_id", b)]) ↔ a = b := by
    constructor
    · intro heq
      have hfind := congrArg (OrderedMap.find? · (ascii "request_id")) heq
      simpa [OrderedMap.find?_ofList, OrderedMap.lookup] using hfind
    · exact fun heq => heq ▸ rfl
  rw [AsSession, hsummary, hdetails, hsingle, boundAuditString_eq_iff, boundAuditString_eq_iff]

/-! ### Lines that are not decoded -/

theorem handleRequest_undecoded {request : Json} {what : Bytes}
    (hparse : parser.parse input = .ok request) (hdecode : decode request = .error what) :
    (handleRequest parser service host model input).run σ =
      (protocolError service.audit host (requestIdOrUnknown request) (.std what)).run σ := by
  unfold handleRequest
  rw [hparse]
  dsimp only
  rw [dispatch_eq, hdecode, Run.run_tryCatch_of_error (s := []) (e := .std what) rfl]
  simp only [List.append_nil, List.nil_append, Prod.mk.eta]

/-- In a writable log what can be encoded is reported. -/
theorem mem_events_protocolError (hw : host.Writable) (audit : AuditLog) {id message : Bytes}
    (hmessage : Valid (boundAuditString message)) (hid : Valid (boundAuditString id))
    (σ : History) : ∃ event, content event = protocolReport id message ∧
      event ∈ events ((protocolError audit host id (.std message)).run σ).1 := by
  obtain ⟨d, hd, hencodable⟩ := (recordable_protocolError id message).mpr ⟨hmessage, hid⟩
  obtain ⟨event, hcontent, hrun⟩ := record_of_recordable audit host _ _ _ _ hw hd hencodable σ
  refine ⟨event, ?_, ?_⟩
  · rw [hcontent, ← Except.ok.inj hd]
    rfl
  · rw [protocolError, auditProtocolError, Run.run_bind_of_ok hrun, mem_events]
    simp

theorem rejected_of_undecoded {request : Json} {what : Bytes}
    (hparse : parser.parse input = .ok request) (hdecode : decode request = .error what) :
    Rejected parser input := by
  rw [Rejected, hparse]
  dsimp only
  rw [hdecode]
  trivial

variable (service model σ) in
/-- In a writable log a line that is not decoded is rejected with a report of that. -/
theorem exists_report (hw : host.Writable) {request : Json} {what : Bytes}
    (hparse : parser.parse input = .ok request) (hdecode : decode request = .error what)
    (hmessage : Valid (boundAuditString what))
    (hid : Valid (boundAuditString (requestIdOrUnknown request))) :
    Rejected parser input ∧
      ∃ event ∈ events ((handleRequest parser service host model input).run σ).1,
        content event = protocolReport (requestIdOrUnknown request) what ∧
          Reported parser service host model σ input (requestIdOrUnknown request) what := by
  obtain ⟨event, hcontent, he⟩ := mem_events_protocolError hw service.audit hmessage hid σ
  refine ⟨rejected_of_undecoded hparse hdecode, event, ?_, hcontent, .thrown (s := []) hparse ?_⟩
  · rw [handleRequest_undecoded hparse hdecode]
    exact he
  · rw [dispatch_eq, hdecode]
    rfl

/-- What the session would have redacted is on record. -/
theorem not_reportsAsSession (hw : host.Writable) {request : Json} {what : Bytes}
    (hparse : parser.parse input = .ok request) (hdecode : decode request = .error what)
    (hmessage : Valid (boundAuditString what))
    (hid : Valid (boundAuditString (requestIdOrUnknown request)))
    (hne : boundAuditString what ≠ Session.boundAuditString what) :
    ¬ ReportsAsSession parser service host model σ input := by
  intro h
  obtain ⟨hrejected, event, he, hcontent, hreported⟩ :=
    exists_report service model σ hw hparse hdecode hmessage hid
  have hsession := h hrejected event he _ _ hreported hcontent
  exact hne ((congrArg Content.summary hcontent).symm.trans hsession.1)

end

/-! ### A line without an id -/

theorem jsonParser_render {request : Json} (hwritten : request.Written)
    (hencodable : request.Encodable) : jsonParser.parse request.render = .ok request :=
  Json.undoes_parse request hwritten hencodable

theorem reports_redacted_idless : ∃ event ∈ events ((handleRequest jsonParser infoService stillHost
    (constantModel []) (Json.object []).render).run []).1,
      AsSession event unknownId (ascii "request id is required") := by
  have hwritten : (Json.object []).Written := ⟨List.Pairwise.nil, trivial⟩
  have hparse := jsonParser_render hwritten (by simp)
  have hdecode : decode (.object []) = .error (ascii "request id is required") := rfl
  have hw : stillHost.Writable := fun _ _ => rfl
  obtain ⟨hrejected, event, he, hcontent, -⟩ :=
    exists_report infoService (constantModel []) [] hw hparse hdecode (by decide) (by decide)
  exact ⟨event, he, ((reports_redacted_iff hrejected he).2 _ _
    hcontent).mpr ⟨nothingToRedact_of_plain (by decide) (by decide) (by decide),
      nothingToRedact_of_plain (by decide) (by decide) (by decide)⟩⟩

/-! ### A secret on record -/

/-- A tool call with a secret in the place of its risk class. -/
def secretLine : Json :=
  .ofPairs [(ascii "id", .string (ascii "7")), (ascii "method", .string (ascii "tool.call")),
    (ascii "tool", .ofPairs [(ascii "id", .string (ascii "7")),
      (ascii "tool_name", .string (ascii "system.info")),
      (ascii "risk", .string (ascii "password=hunter2")), (ascii "params", .object [])])]

theorem written_secretLine : secretLine.Written :=
  Json.written_ofPairs (by simp [Json.Written, Json.WrittenMembers, Json.written_ofPairs])

theorem decode_secretLine :
    decode secretLine = .error (ascii "unknown risk class: password=hunter2") := by decide +kernel

/-- The message quotes the risk class, and the daemon writes it as it is. -/
theorem echoed_secret_recorded :
    ¬ ∀ (parser : Parser) (service : SessionService) (host : Host) (model : ModelProvider)
      (σ : History) (input : Bytes), ReportsAsSession parser service host model σ input := by
  intro h
  have hparse := jsonParser_render written_secretLine (by decide +kernel)
  have hw : stillHost.Writable := fun _ _ => rfl
  exact not_reportsAsSession hw hparse decode_secretLine (by decide) (by decide +kernel)
    (by decide +kernel)
    (h jsonParser infoService stillHost (constantModel []) [] secretLine.render)

end Kasli.Kaslid
