import Kasli.Core.RedactEdge
import Kasli.Effect.Steady
import Kasli.Session.Accounting
import Kasli.Session.Fields
import Kasli.Session.Independence
import Kasli.Session.Integrity

/-! What the audit log says about the value of a parameter. A value is redacted on its own and the
encoded parameters are redacted once more, where a quote stands between the key and the value: so
the rules for `key=value` and `key: value` do not meet it, whatever the key is. The value shows,
unless a value rule that began before it swallows it or the encoded text is cut before it. -/

namespace Kasli.Session

open Core Policy Audit Tools Run Json Regex

/-! ### The text of the parameters -/

/-- A value without blanks and quotes. -/
structure IsSecret (v : Bytes) : Prop where
  ne_nil : v ≠ []
  plain : PlainText v

def memberText (e : Bytes × Bytes) : Bytes :=
  quote e.1 ++ chr ':' :: quote (boundString e.2 maxAuditParamValueBytes)

/-- The encoded parameters up to the quote that opens the value of `key`. -/
def textBefore (params : OrderedMap Bytes Bytes) (key : Bytes) : Bytes :=
  chr '\x7b' :: ((params.entries.filter (·.1 < key)).flatMap fun e => memberText e ++ [chr ',']) ++
    (quote key ++ ascii ":\"")

/-- The encoded parameters after the quote that closes the value of `key`. -/
def textAfter (params : OrderedMap Bytes Bytes) (key : Bytes) : Bytes :=
  ((params.entries.filter (key < ·.1)).flatMap fun e => chr ',' :: memberText e) ++ ascii "\x7d"

/-- The encoded parameters with the value `v` for `key`. -/
def textWith (params : OrderedMap Bytes Bytes) (key v : Bytes) :
    Bytes := (boundedParamsJson (params.assign key v)).render

theorem renderMembers_params (l : List (Bytes × Bytes)) (ms : List (Bytes × Json)) :
    renderMembers (l.map (fun e => (e.1, .string (boundString e.2 maxAuditParamValueBytes))) ++
      ms) = l.flatMap (fun e => chr ',' :: memberText e) ++ renderMembers ms := by
  induction l with
  | nil => rfl
  | cons e l ih => simp [renderMembers, render, ih, memberText]

/-- The commas stand before the members or after them. -/
theorem commas_shift (l : List (Bytes × Bytes)) (t : Bytes) :
    l.flatMap (fun e => chr ',' :: memberText e) ++ chr ',' :: t =
      chr ',' :: (l.flatMap (fun e => memberText e ++ [chr ',']) ++ t) := by
  induction l with
  | nil => rfl
  | cons e l ih => simp [ih]

theorem textWith_eq (params : OrderedMap Bytes Bytes) (key v : Bytes) : textWith params key v =
    textBefore params key ++ ((boundString v maxAuditParamValueBytes).flatMap escapeByte ++
      chr '"' :: textAfter params key) := by
  rw [textWith, boundedParamsJson, OrderedMap.entries_assign, List.map_append, List.map_cons]
  have hafter : renderMembers ((params.entries.filter (key < ·.1)).map fun e =>
      (e.1, .string (boundString e.2 maxAuditParamValueBytes))) = textAfter params key := by
    simpa [renderMembers, textAfter] using renderMembers_params
      (params.entries.filter (key < ·.1)) []
  cases hbelow : params.entries.filter (·.1 < key) with
  | nil => simp [render, hafter, textBefore, hbelow, quote, ascii]
  | cons e l =>
    have hrest := renderMembers_params l ((key, .string (boundString v maxAuditParamValueBytes)) ::
      (params.entries.filter (key < ·.1)).map fun e =>
        (e.1, .string (boundString e.2 maxAuditParamValueBytes)))
    simp only [List.map_cons, List.cons_append, render, hrest]
    rw [renderMembers, hafter, commas_shift]
    simp [textBefore, hbelow, memberText, render, quote, ascii]

theorem afterValue_textAfter (params : OrderedMap Bytes Bytes) (key : Bytes) :
    AfterValue (textAfter params key) := by
  unfold textAfter
  cases params.entries.filter (key < ·.1) with
  | nil => exact .inl (by decide)
  | cons e l => exact .inr ⟨_, rfl⟩

/-! ### A bounded value -/

theorem plainText_replaceAll {R : Rule UInt8} (hrep : PlainText R.replacement) {s : Bytes}
    (h : PlainText s) :
    PlainText (R.replaceAll s) := fun b hb => (R.mem_replaceAll hb).elim (h b) (hrep b)

theorem plainText_redact {s : Bytes} (h : PlainText s) : PlainText (redactLikelySecret s) := by
  have hquoted : quotedAssignmentPattern.replaceAll s = s := by
    refine Unmatched.replaceAll fun t ht _ => ?_
    cases hm : quotedAssignmentPattern.firstMatch t with
    | none => rfl
    | some m =>
      obtain ⟨-, r, rfl, hr⟩ := Rule.firstMatch_eq_some _ hm
      obtain ⟨u, hu, rfl⟩ := Rule.tailRest_eq_some _ hr
      obtain ⟨_, ⟨a, ha, rfl⟩, _, -, rfl⟩ := Pattern.mem_seq.mp hu
      obtain rfl : a = chr '"' := by simpa using ha
      exact absurd rfl (h _ (ht.subset (by simp))).2
  have hrep : PlainText (ascii "[REDACTED]") := by decide
  rw [redactLikelySecret, hquoted]
  exact plainText_replaceAll hrep (plainText_replaceAll hrep (plainText_replaceAll hrep h))

theorem plainText_boundString {v : Bytes} (h : PlainText v) :
    PlainText (boundString v maxAuditParamValueBytes) := by
  have hmarker : PlainText marker := by decide
  by_cases hle : (redactLikelySecret v).length ≤ maxAuditParamValueBytes
  · rw [boundString_of_le hle]
    exact plainText_redact h
  · rw [boundString_of_lt (by decide) (by omega)]
    exact List.forall_mem_append.mpr ⟨fun b hb =>
      plainText_redact h b (List.mem_of_mem_take hb), hmarker⟩

theorem boundString_ne_nil {v : Bytes} (h : v ≠ []) :
    boundString v maxAuditParamValueBytes ≠ [] := by
  by_cases hle : (redactLikelySecret v).length ≤ maxAuditParamValueBytes
  · rw [boundString_of_le hle]
    rcases unmatched_or_long_redact v with hnone | hlong
    · rw [redactLikelySecret_eq_foldl, foldl_unmatched hnone]
      exact h
    · exact List.ne_nil_of_length_pos (by omega)
  · rw [boundString_of_lt (by decide) (by omega)]
    exact List.append_ne_nil_of_right_ne_nil _ (by decide)

theorem escapeByte_plain {b : UInt8} (h : isSpace b = false ∧ b ≠ chr '"') :
    PlainText (escapeByte b) := by
  revert h
  exact forall_byte (p := fun b => isSpace b = false ∧ b ≠ chr '"' → PlainText (escapeByte b))
    (by decide +kernel) b

theorem escapeByte_ne_nil (b : UInt8) : escapeByte b ≠ [] :=
  forall_byte (p := fun b => escapeByte b ≠ []) (by decide +kernel) b

/-- The text of a value between its quotes. -/
def valueText (v : Bytes) : Bytes := (boundString v maxAuditParamValueBytes).flatMap escapeByte

theorem plainText_valueText {v : Bytes} (h : IsSecret v) : PlainText (valueText v) := by
  intro b hb
  obtain ⟨a, ha, hab⟩ := List.mem_flatMap.mp hb
  exact escapeByte_plain (plainText_boundString h.plain a ha) b hab

theorem valueText_ne_nil {v : Bytes} (h : IsSecret v) : valueText v ≠ [] := by
  obtain ⟨b, s, hs⟩ := List.exists_cons_of_ne_nil (boundString_ne_nil h.ne_nil)
  rw [valueText, hs, List.flatMap_cons]
  exact List.append_ne_nil_of_left_ne_nil (escapeByte_ne_nil b) _

theorem isSecret_digit {d : Bytes} (h : d = ascii "0" ∨ d = ascii "1") : IsSecret d := by
  rcases h with rfl | rfl
  · exact ⟨by decide, by decide⟩
  · exact ⟨by decide, by decide⟩

/-! ### Which texts are alike -/

/-- What the record of the parameters keeps of the value of `key`: nothing. A value rule that
began before the value runs over it, or the redacted text is cut before it. -/
def Withheld (params : OrderedMap Bytes Bytes) (key : Bytes) : Prop :=
  ¬ EndsQuote (redactLikelySecret (textBefore params key)) ∨
    maxAuditJsonBytes - marker.length ≤ (redactLikelySecret (textBefore params key)).length ∧
      maxAuditJsonBytes < (redactLikelySecret (textWith params key (ascii "0"))).length

instance (params : OrderedMap Bytes Bytes) (key : Bytes) : Decidable (Withheld params key) :=
  inferInstanceAs (Decidable (_ ∨ _))

section

variable (params : OrderedMap Bytes Bytes) (key : Bytes)

/-- The redacted text with a value of the kind: one text for all, or the value's own between
fixed texts. -/
theorem redact_textWith :
    (EndsQuote (redactLikelySecret (textBefore params key)) ∧
      ∀ v, redactLikelySecret (textWith params key v) =
      redactLikelySecret (textBefore params key) ++
        redactLikelySecret (valueText v ++ chr '"' :: textAfter params key)) ∨
    ¬ EndsQuote (redactLikelySecret (textBefore params key)) ∧
      ∃ out, ∀ v, IsSecret v → redactLikelySecret (textWith params key v) = out := by
  obtain ⟨t, ht⟩ : ∃ t, textBefore params key = t ++ ascii ":\"" := by
    unfold textBefore
    exact ⟨_, (List.append_assoc ..).symm⟩
  rcases redact_after_quote (t := t)
    (afterValue_textAfter params key) with ⟨hends, hout⟩ | ⟨hends, out, hout⟩
  · rw [← ht] at hends hout
    exact .inl ⟨hends, fun v => by rw [textWith_eq, hout]; rfl⟩
  · rw [← ht] at hends hout
    exact .inr ⟨hends, out, fun v hv => by rw [textWith_eq]; exact hout _ (plainText_valueText hv)⟩

/-- The bounded texts are alike when the value is withheld. -/
theorem boundString_eq_of_withheld (h : Withheld params key) {v v' : Bytes} (hv : IsSecret v)
    (hv' : IsSecret v') : boundString (textWith params key v) maxAuditJsonBytes =
      boundString (textWith params key v') maxAuditJsonBytes := by
  rcases redact_textWith params key with ⟨hends, hout⟩ | ⟨-, out, hout⟩
  swap
  · rw [boundString, boundString, hout v hv, hout v' hv']
  obtain ⟨hbefore, hlong⟩ := h.resolve_left (not_not_intro hends)
  -- every text is cut, and it is cut before the value
  have hcut : ∀ {v}, IsSecret v → boundString (textWith params key v) maxAuditJsonBytes =
      (redactLikelySecret (textBefore params key)).take (maxAuditJsonBytes - marker.length) ++
        marker := by
    intro v hv
    have hlen : maxAuditJsonBytes < (redactLikelySecret (textWith params key v)).length := by
      have hzero : valueText (ascii "0") = [chr '0'] := by decide +kernel
      rw [hout, hzero, List.length_append, List.singleton_append] at hlong
      rw [hout, List.length_append]
      have hmax : maxAuditJsonBytes < maxAuditJsonBytes - marker.length + 16 := by decide
      rcases length_redact_value (b := chr '0') (by decide) (valueText_ne_nil hv)
        (chr '"' :: textAfter params key) with hvalue | hvalue
      · omega
      · omega
    rw [boundString_of_lt (by decide) hlen, hout, List.take_append_of_le_length hbefore]
  rw [hcut hv, hcut hv']

/-- The bounded texts of two digits differ when the value is not withheld. -/
theorem boundString_ne_of_not_withheld (h : ¬ Withheld params key) :
    boundString (textWith params key (ascii "0")) maxAuditJsonBytes ≠
      boundString (textWith params key (ascii "1")) maxAuditJsonBytes := by
  rw [Withheld, not_or, not_not] at h
  obtain ⟨hends, hshort⟩ := h
  obtain ⟨-, hout⟩ := (redact_textWith params key).resolve_right fun hno => hno.1 hends
  have hdigit : ∀ {d : UInt8}, wordByte d = false →
    redactLikelySecret (d :: chr '"' :: textAfter params key) =
      d :: redactLikelySecret (chr '"' :: textAfter params key) := by
    intro d hd
    have hskip : ∀ R ∈ rules, ∀ t, R.replaceAll (d :: t) = d :: R.replaceAll t := fun R hR t =>
      (copied_byte (headed_rules R hR) hd t).replaceAll
    simp only [rules, List.forall_mem_cons] at hskip
    obtain ⟨h₁, h₂, h₃, h₄, -⟩ := hskip
    simp only [redactLikelySecret, h₁, h₂, h₃, h₄]
  have htext : ∀ {d : UInt8}, valueText [d] = [d] → wordByte d = false →
      redactLikelySecret (textWith params key [d]) = redactLikelySecret (textBefore params key) ++
        d :: redactLikelySecret (chr '"' :: textAfter params key) := fun hv hd => by
    rw [hout, hv, List.singleton_append, hdigit hd]
  have hzero : redactLikelySecret (textWith params key (ascii "0")) = _ :=
    htext (d := chr '0') (by decide +kernel) (by decide)
  have hone : redactLikelySecret (textWith params key (ascii "1")) = _ :=
    htext (d := chr '1') (by decide +kernel) (by decide)
  generalize redactLikelySecret (textBefore params key) = before at *
  generalize redactLikelySecret (chr '"' :: textAfter params key) = after at *
  by_cases hle : (redactLikelySecret (textWith params key (ascii "0"))).length ≤ maxAuditJsonBytes
  · have hle' : (redactLikelySecret (textWith params key (ascii "1"))).length ≤
        maxAuditJsonBytes := by
      simpa [hzero, hone] using hle
    rw [boundString_of_le hle, boundString_of_le hle', hzero, hone]
    intro heq
    have hcons := List.append_cancel_left heq
    exact absurd (List.cons.inj hcons).1 (by decide)
  · have hlt : maxAuditJsonBytes <
      (redactLikelySecret (textWith params key (ascii "0"))).length := by omega
    have hlt' : maxAuditJsonBytes <
        (redactLikelySecret (textWith params key (ascii "1"))).length := by
      simpa [hzero, hone] using hlt
    obtain ⟨k, hk⟩ : ∃ k, maxAuditJsonBytes - marker.length - before.length = k + 1 :=
      ⟨_, (Nat.succ_pred (by omega)).symm⟩
    rw [boundString_of_lt (by decide) hlt, boundString_of_lt (by decide) hlt', hzero, hone,
      List.take_append, List.take_append, hk, List.take_succ_cons, List.take_succ_cons]
    intro heq
    have hcons := List.append_cancel_left (List.append_cancel_right heq)
    exact absurd (List.cons.inj hcons).1 (by decide)

end

/-! ### What is recorded after the call -/

/-- The content that an action records. -/
def recorded : Action → Option Content
  | .appended event => some (content event)
  | _ => none

theorem contents_events (s : History) : (events s).map content = s.filterMap recorded := by
  rw [events, List.map_filterMap]
  congr 1
  funext a
  cases a with
  | appended event => rfl
  | _ => rfl

theorem ends_unit {x y : Except Exn Unit} (h : Ends (fun _ _ => True) x y) : x = y := by
  cases h with
  | ok h => rfl
  | error e => rfl

section

variable {host : Host} (hw : host.Writable)

include hw

/-- In a writable log what an append does depends on its event alone. -/
theorem append_steady (log : AuditLog) (event : AuditEvent) (σ σ' : History) :
    (log.append host event).run σ = (log.append host event).run σ' := by
  unfold AuditLog.append
  cases event.toJson.dump with
  | error what => rfl
  | ok record =>
    simp only [ofExcept_ok, Run.pure_bind, Run.run_ask_bind]
    rw [hw, hw]
    rfl

theorem steady_record (log : AuditLog) (actor type summary : Bytes)
    (details : Except Bytes (OrderedMap Bytes Bytes)) :
    Steady recorded (log.record host actor type summary details) := by
  intro σ σ'
  obtain ⟨id, timestamp, hid, ht, heq⟩ := record_eq log host actor type summary details σ
  obtain ⟨id', timestamp', hid', ht', heq'⟩ := record_eq log host actor type summary details σ'
  rw [heq, heq']
  cases details with
  | error what => exact ⟨rfl, rfl⟩
  | ok d =>
    have hwrite : WriteAlike host host := fun σ σ' _ event event' _ => by rw [hw, hw]
    obtain ⟨hadd, hend⟩ := related_append log hwrite ⟨actor, type, summary, d⟩ hid ht hid' ht' []
      [] rfl
    simp only [append_steady hw log _ (σ ++ [.issued]) [],
      append_steady hw log _ (σ' ++ [.issued]) []]
    constructor
    · rw [List.filterMap_cons, List.filterMap_cons, ← contents_events, ← contents_events,
        contents_eq hadd]
    · exact ends_unit hend

/-- What an ask does after its call; of the request it uses the id only. -/
def afterCall (service : SessionService) (host : Host) (prompt : Bytes) (request : ToolRequest)
    (model : ModelProvider) (actor : Bytes) (response : ToolResponse) : Act AskResult :=
  if response.status ≠ .ok then do
    service.audit.record host actor (ascii "model.skipped") (boundAuditString prompt)
      (skippedDetails prompt request response)
    return { ok := false, answer := [],
             error := ascii "tool call did not succeed: " ++ response.message }
  else do
    service.audit.record host actor (ascii "model.request") (boundAuditString prompt)
      (modelContextDetails prompt request response.evidence)
    tryCatch (service.complete host model ⟨prompt, response.evidence⟩ request actor)
      (service.modelError host ⟨prompt, response.evidence⟩ request actor)

omit hw in
theorem askWithTool_eq (service : SessionService) (host : Host) (prompt : Bytes)
    (request : ToolRequest)
    (model : ModelProvider) (actor : Bytes) : service.askWithTool host prompt request model actor =
      (service.callTool host request actor >>= afterCall service host prompt request model actor) :=
        rfl

theorem steady_afterCall (service : SessionService) (prompt : Bytes) (request : ToolRequest)
    (outcome : ModelRequest → Except Exn Bytes) (actor : Bytes) (response : ToolResponse) :
    Steady recorded (afterCall service host prompt request (steadyModel outcome)
      actor response) := by
  have hrecord := fun type summary details =>
    steady_record hw service.audit actor type summary details
  unfold afterCall
  split_ifs
  · exact (hrecord _ _ _).bind fun _ => steady_pure _
  · refine (hrecord _ _ _).bind fun _ => Steady.tryCatch ?_ fun error => ?_
    · have hask : Steady recorded ((steadyModel outcome).ask ⟨prompt, response.evidence⟩) :=
        (steady_emit _).bind fun _ => steady_ask _
      exact hask.bind fun _ => (hrecord _ _ _).bind fun _ => steady_pure _
    · cases error with
      | std what => exact (hrecord _ _ _).bind fun _ => steady_pure _
      | other => exact (hrecord _ _ _).bind fun _ => steady_pure _

end

/-! ### Calls with one value or another -/

/-- The request with the value `v` for the parameter `key`. -/
def withParam (request : ToolRequest) (key v : Bytes) : ToolRequest :=
  { request with params := request.params.assign key v }

theorem afterCall_withParam (service : SessionService) (host : Host) (prompt : Bytes)
    (request : ToolRequest)
    (model : ModelProvider) (actor : Bytes) (response : ToolResponse) (key v : Bytes) :
    afterCall service host prompt (withParam request key v) model actor response =
      afterCall service host prompt request model actor response := rfl

section

variable {service : SessionService} {host : Host} {request : ToolRequest} {actor : Bytes}
    {response : ToolResponse}
variable {σ ex : History} (hr : (service.respond request).run σ = (ex, .ok response))

include hr

/-- A call whose record can be written leaves that record behind. -/
theorem contents_callTool (hw : host.Writable) (h : CallRecordable service request actor response) :
    ∃ details event, toolAuditDetails request (service.policy.decide request) response =
      .ok details ∧
      content event = ⟨actor, ascii "tool.call", boundAuditString request.toolName, details⟩ ∧
        events ex = [] ∧
      (service.callTool host request actor).run σ =
        (ex ++ [.issued, .appended event], .ok response) := by
  obtain ⟨details, hd, he⟩ := h
  obtain ⟨event, hc, hrec⟩ := record_of_recordable service.audit host actor (ascii "tool.call")
    (boundAuditString request.toolName)
    (toolAuditDetails request (service.policy.decide request) response) hw hd he (σ ++ ex)
  refine ⟨details, event, hd, hc, events_respond hr, ?_⟩
  unfold SessionService.callTool
  rw [Run.run_bind_of_ok hr, Run.run_bind_of_ok hrec]
  simp

end

/-- What a recorded call says of the parameters. -/
theorem params_of_toolAuditDetails {request : ToolRequest} {decision : PolicyDecision}
    {response : ToolResponse} {details : OrderedMap Bytes Bytes}
    (h : toolAuditDetails request decision response = .ok details) :
    boundJson (boundedParamsJson request.params) =
        .ok (boundString (boundedParamsJson request.params).render maxAuditJsonBytes) ∧
      details.find? (ascii "request_params") =
        some (boundString (boundedParamsJson request.params).render maxAuditJsonBytes) := by
  obtain ⟨text, refs, htext, -, hfind, -⟩ := find?_jsonDetails h
  by_cases he : (boundedParamsJson request.params).Encodable
  · have hbound := boundJson_of_encodable he
    rw [hbound] at htext
    exact ⟨hbound, by rw [hfind, Except.ok.inj htext]⟩
  · obtain ⟨what, hwhat, -⟩ := boundJson_of_not_encodable he
    rw [hwhat] at htext
    cases htext

/-- The records of two calls are the same exactly when what they say of the parameters is. -/
theorem toolAuditDetails_eq_iff {request : ToolRequest} {key v v' : Bytes}
    {decision : PolicyDecision}
    {response : ToolResponse} {details details' : OrderedMap Bytes Bytes}
    (h : toolAuditDetails (withParam request key v) decision response = .ok details)
    (h' : toolAuditDetails (withParam request key v') decision response = .ok details') :
    details = details' ↔ boundString (textWith request.params key v) maxAuditJsonBytes =
      boundString (textWith request.params key v') maxAuditJsonBytes := by
  obtain ⟨hbound, hfind⟩ := params_of_toolAuditDetails h
  obtain ⟨hbound', hfind'⟩ := params_of_toolAuditDetails h'
  constructor
  · rintro rfl
    exact Option.some.inj (hfind.symm.trans hfind')
  · intro heq
    unfold toolAuditDetails at h h'
    rw [hbound] at h
    rw [hbound', show boundString (boundedParamsJson (withParam request key v').params).render
      maxAuditJsonBytes = boundString (boundedParamsJson (withParam request key v).params).render
        maxAuditJsonBytes from heq.symm] at h'
    exact Except.ok.inj (h.symm.trans h')

/-! ### The value and the events -/

section

variable (service : SessionService) (host : Host) (outcome : ModelRequest → Except Exn Bytes)
variable (prompt : Bytes) (request : ToolRequest) (actor key : Bytes)

/-- The contents of the events of a call and of an ask with the value `v` for the parameter. -/
def callContents (σ : History) (v : Bytes) : List Content :=
  (events ((service.callTool host (withParam request key v) actor).run σ).1).map content

def askContents (σ : History) (v : Bytes) : List Content :=
  (events ((service.askWithTool host prompt (withParam request key v) (steadyModel outcome)
    actor).run σ).1).map content

/-- A value of the kind with which the call's record can be written. -/
structure IsRecorded (response : ToolResponse) (v : Bytes) : Prop where
  secret : IsSecret v
  recordable : CallRecordable service (withParam request key v) actor response

/-- What is recorded of a call and of an ask does not depend on the value of the parameter
exactly when the value is withheld. -/
theorem secret_withheld_iff (hw : host.Writable) {σ : History} {response : ToolResponse}
    (hrespond : ∀ v, IsSecret v → ∃ ex, (service.respond (withParam request key v)).run σ =
      (ex, .ok response))
    (hzero : IsRecorded service request actor key response (ascii "0"))
    (hone : IsRecorded service request actor key response (ascii "1")) :
    (∀ v v', IsRecorded service request actor key response v →
      IsRecorded service request actor key response v' →
      callContents service host request actor key σ v =
        callContents service host request actor key σ v' ∧
      askContents service host outcome prompt request actor key σ v =
        askContents service host outcome prompt request actor key σ v') ↔
    Withheld request.params key := by
  have hdecide : ∀ v, service.policy.decide (withParam request key v) =
    service.policy.decide request := fun _ => rfl
  have hcall : ∀ v, IsRecorded service request actor key response v → ∃ details,
      toolAuditDetails (withParam request key v)
        (service.policy.decide request) response = .ok details ∧
      callContents service host request actor key σ v =
        [⟨actor, ascii "tool.call", boundAuditString request.toolName, details⟩] ∧
      askContents service host outcome prompt request actor key σ v =
        ⟨actor, ascii "tool.call", boundAuditString request.toolName, details⟩ ::
          ((afterCall service host prompt request (steadyModel outcome) actor response).run
            []).1.filterMap recorded := by
    intro v hv
    obtain ⟨ex, hr⟩ := hrespond v hv.secret
    obtain ⟨details, event, hd, hc, hex, hrun⟩ := contents_callTool hr hw hv.recordable
    have hevents : events (ex ++ [.issued, .appended event]) = [event] := by simp [hex]
    refine ⟨details, hd, ?_, ?_⟩
    · rw [callContents, hrun, hevents, List.map_singleton, hc]
      rfl
    · rw [askContents, askWithTool_eq, Run.run_bind_of_ok hrun, events_append, hevents,
        List.map_append, List.map_singleton, hc, contents_events, afterCall_withParam,
        (steady_afterCall hw service prompt request outcome actor response _ []).1]
      rfl
  constructor
  · intro h
    by_contra hshown
    obtain ⟨details, hd, hcontents, -⟩ := hcall _ hzero
    obtain ⟨details', hd', hcontents', -⟩ := hcall _ hone
    have heq := (h _ _ hzero hone).1
    rw [hcontents, hcontents', List.cons.injEq, Content.mk.injEq] at heq
    exact boundString_ne_of_not_withheld request.params key hshown
      ((toolAuditDetails_eq_iff hd hd').mp heq.1.2.2.2)
  · intro h v v' hv hv'
    obtain ⟨details, hd, hcontents, hask⟩ := hcall v hv
    obtain ⟨details', hd', hcontents', hask'⟩ := hcall v' hv'
    have heq : details = details' := (toolAuditDetails_eq_iff hd hd').mpr
      (boundString_eq_of_withheld request.params key h hv.secret hv'.secret)
    rw [hcontents, hcontents', hask, hask', heq]
    exact ⟨rfl, rfl⟩

end

/-! ### A value that is withheld and one that shows -/

/-- A key word with a colon at the end of the text before the value. -/
def noteParams : OrderedMap Bytes Bytes := .ofList [(ascii "note", ascii "password: ")]

def tokenRequest (params : OrderedMap Bytes Bytes) : ToolRequest := { infoRequest with params }

theorem respond_tokenRequest (params : OrderedMap Bytes Bytes) (v : Bytes) (σ : History) :
    (infoService.respond (withParam (tokenRequest params) (ascii "token") v)).run σ =
      ([.executed (ascii "system.info") (withParam (tokenRequest params) (ascii "token") v)],
        .ok infoResponse) :=
  respond_constantTool infoResponse (withParam (tokenRequest params) (ascii "token") v) rfl σ

theorem isRecorded_of_ascii {params : OrderedMap Bytes Bytes} {v : Bytes} (hv : IsSecret v)
    (h : ∀ e ∈ (params.assign (ascii "token") v).entries, IsAscii e.1 ∧ IsAscii e.2)
    (hrender : IsAscii (textWith params (ascii "token") v)) :
    IsRecorded infoService (tokenRequest params) (ascii "cli") (ascii "token") infoResponse v := by
  have hid : Utf8.Valid infoRequest.id ∧ CutsClean infoRequest.id maxAuditStringBytes := by decide
  have hname : Utf8.Valid infoRequest.toolName ∧
    CutsClean infoRequest.toolName maxAuditStringBytes := by decide
  have hrefs : CutsClean (evidenceRefsJson infoResponse.evidence).render
    maxAuditJsonBytes := by decide
  have hrequest : (withParam (tokenRequest params) (ascii "token") v).Valid :=
    ⟨hid.1, hname.1, fun e he =>
      ⟨Utf8.valid_of_isAscii (h e he).1, Utf8.valid_of_isAscii (h e he).2⟩⟩
  refine ⟨hv, (recordable_toolCall (by decide) hrequest infoResponse_valid infoService.policy).mpr
    ?_⟩
  exact ⟨hid.2, hname.2, fun e he => cutsClean_of_isAscii (h e he).2 _,
    cutsClean_of_isAscii hrender _, by decide, ⟨by simp [infoResponse], hrefs⟩⟩

theorem secret_withheld_iff_note :
    IsRecorded infoService (tokenRequest noteParams) (ascii "cli")
      (ascii "token") infoResponse (ascii "hunter2") ∧
    callContents infoService stillHost (tokenRequest noteParams) (ascii "cli") (ascii "token") []
      (ascii "hunter2") =
      callContents infoService stillHost (tokenRequest noteParams) (ascii "cli") (ascii "token")
        [] (ascii "0") :=
  have hsecret : IsSecret (ascii "hunter2") := ⟨by decide, by decide⟩
  have hrecorded : IsRecorded infoService (tokenRequest noteParams) _ _ _ _ :=
    isRecorded_of_ascii hsecret (by decide) (by decide +kernel)
  have hzero : IsRecorded infoService (tokenRequest noteParams) _ _ _ _ :=
    isRecorded_of_ascii (isSecret_digit (.inl rfl)) (by decide) (by decide +kernel)
  have hone : IsRecorded infoService (tokenRequest noteParams) _ _ _ _ :=
    isRecorded_of_ascii (isSecret_digit (.inr rfl)) (by decide) (by decide +kernel)
  ⟨hrecorded, ((secret_withheld_iff infoService stillHost (fun _ =>
    .ok (ascii "fine")) (ascii "how?")
    (tokenRequest noteParams) (ascii "cli") (ascii "token") (fun _ _ => rfl)
    (fun v _ => ⟨_, respond_tokenRequest noteParams v []⟩) hzero hone).mpr
      (.inl (by decide +kernel)) _ _ hrecorded hzero).1⟩

/-- A token alone in the parameters shows. -/
theorem secret_recorded : ¬ ∀ (service : SessionService) (host : Host) (request : ToolRequest)
    (actor key v v' : Bytes)
    (σ : History) (response : ToolResponse), host.Writable → IsKeyWord key →
      IsSecret v → IsSecret v' →
    ((service.respond (withParam request key v)).run σ).2 = .ok response →
    ((service.respond (withParam request key v')).run σ).2 = .ok response →
    callContents service host request actor key σ v =
      callContents service host request actor key σ v' := by
  intro h
  have hzero := isSecret_digit (d := ascii "0") (.inl rfl)
  have hone := isSecret_digit (d := ascii "1") (.inr rfl)
  have heq := h infoService stillHost (tokenRequest .empty) (ascii "cli") (ascii "token")
    (ascii "0") (ascii "1") []
    infoResponse (fun _ _ => rfl) (by decide) hzero hone (by rw [respond_tokenRequest])
      (by rw [respond_tokenRequest])
  obtain ⟨details, event, hd, hc, -, hrun⟩ :=
    contents_callTool (respond_tokenRequest .empty (ascii "0") [])
    (show stillHost.Writable from fun _ _ => rfl)
    (isRecorded_of_ascii hzero (by decide) (by decide +kernel)).recordable
  obtain ⟨details', event', hd', hc', -, hrun'⟩ :=
    contents_callTool (respond_tokenRequest .empty (ascii "1") [])
    (show stillHost.Writable from fun _ _ => rfl)
    (isRecorded_of_ascii hone (by decide) (by decide +kernel)).recordable
  rw [callContents, callContents, hrun, hrun'] at heq
  simp only [events_append, events_executed, events_nil, events_issued, events_appended,
    List.nil_append, List.map_cons, List.map_nil, hc, hc', List.cons.injEq, Content.mk.injEq] at heq
  have hshown : ¬ Withheld .empty (ascii "token") := by decide +kernel
  exact boundString_ne_of_not_withheld _ _ hshown ((toolAuditDetails_eq_iff hd hd').mp heq.1.2.2.2)

end Kasli.Session
