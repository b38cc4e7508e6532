import Kasli.Effect.Raises
import Kasli.Json.Size
import Kasli.Session.SessionService

/-! How long the texts of a session's exceptions are. Records are made of bounded strings, so an
encoder that rejects one complains of a place near its beginning; and the log names only its own
file. -/

namespace Kasli.Session

open Core Audit Json Policy Utf8

/-- A text that is thrown is not longer than a bound. -/
def ShortText (n : ℕ) (error : Exn) : Prop := ∀ what, error = .std what → what.length ≤ n

section

variable {n : ℕ}

theorem isBrief_of_isAscii {s : Bytes} (h : IsAscii s) : IsBrief n s := .inl (valid_of_isAscii h)

theorem shortText_std {what : Bytes} (h : what.length ≤ n) : ShortText n (.std what) :=
  fun _ heq => Exn.std.inj heq ▸ h

/-- Encoding gives the text, or a short complaint. -/
theorem yields_dump {j : Json} (hn : n < 10 ^ 20) (hj : j.Each (IsBrief n)) :
    Run.Yields (fun text => text = j.render) (ShortText 100) (ofExcept j.dump) := by
  cases hdump : j.dump with
  | ok text => exact Run.yields_pure (dump_eq_ok_iff.mp hdump).2
  | error what => exact Run.yields_throw (shortText_std (length_of_dump_error hn hj hdump))

/-! ### Details -/

theorem length_boundString_le (value : Bytes) (maxBytes : ℕ) :
    (boundString value maxBytes).length ≤ maxBytes := by
  simp only [boundString]
  split_ifs
  · assumption
  · rw [List.length_take]
    omega
  · rw [List.length_append, List.length_take]
    omega

/-- The strings of the details are bounded, or what is thrown instead is short. -/
def BriefDetails (n : ℕ) : Except Bytes (OrderedMap Bytes Bytes) → Prop
  | .ok details => ∀ e ∈ details.entries, IsBrief n e.1 ∧ IsBrief n e.2
  | .error what => what.length ≤ 100

theorem briefDetails_ofList {l : List (Bytes × Bytes)}
    (h : ∀ e ∈ l, IsBrief n e.1 ∧ IsBrief n e.2) : BriefDetails n (.ok (.ofList l)) :=
  fun e he => h e (OrderedMap.mem_of_mem_ofList he)

section

variable (hn : maxAuditJsonBytes ≤ n) (hmax : n < 10 ^ 20)

include hn

theorem isBrief_boundString (value : Bytes) {maxBytes : ℕ} (h : maxBytes ≤ maxAuditJsonBytes) :
    IsBrief n (boundString value maxBytes) :=
  .inr (((length_boundString_le value maxBytes).trans h).trans hn)

theorem isBrief_boundAuditString (value : Bytes) : IsBrief n (boundAuditString value) :=
  isBrief_boundString hn value (by decide)

theorem brief_evidenceRefsJson (evidence : List Evidence) :
    (evidenceRefsJson evidence).Each (IsBrief n) := by
  have hbound (value : Bytes) := isBrief_boundAuditString hn value
  exact each_evidenceRefsJson isBrief_of_isAscii fun e _ =>
    ⟨hbound _, hbound _, hbound _, hbound _⟩

theorem brief_boundedParamsJson {params : OrderedMap Bytes Bytes}
    (hkeys : ∀ e ∈ params.entries, Valid e.1) : (boundedParamsJson params).Each (IsBrief n) := by
  refine each_object ?_
  rw [List.forall_mem_map]
  exact fun e he => ⟨.inl (hkeys e he), each_string (isBrief_boundString hn _ (by decide))⟩

include hmax

theorem boundJson_cases {value : Json} (h : value.Each (IsBrief n)) :
    (∃ text, boundJson value = .ok text ∧ IsBrief n text) ∨
      ∃ what, boundJson value = .error what ∧ what.length ≤ 100 := by
  unfold boundJson
  cases hdump : value.dump with
  | ok text => exact .inl ⟨_, rfl, isBrief_boundString hn text le_rfl⟩
  | error what => exact .inr ⟨what, rfl, length_of_dump_error hmax h hdump⟩

/-- Details that end with the references to the evidence. -/
theorem briefDetails_refs {evidence : List Evidence} {l : List (Bytes × Bytes)}
    (h : ∀ e ∈ l, IsBrief n e.1 ∧ IsBrief n e.2) :
    BriefDetails n (do
      let refs ← boundJson (evidenceRefsJson evidence)
      return .ofList (l ++ [(ascii "evidence_refs", refs)])) := by
  rcases boundJson_cases hn hmax (brief_evidenceRefsJson hn evidence) with
    ⟨text, htext, hbrief⟩ | ⟨what, hwhat, hlen⟩
  · rw [htext, ok_bind]
    refine briefDetails_ofList (List.forall_mem_append.mpr ⟨h, List.forall_mem_singleton.mpr ?_⟩)
    exact ⟨isBrief_of_isAscii (by decide : IsAscii (ascii "evidence_refs")), hbrief⟩
  · rw [hwhat]
    exact hlen

theorem briefDetails_toolAudit {request : ToolRequest} (hkeys : ∀ e ∈ request.params.entries,
    Valid e.1) (decision : PolicyDecision) (response : ToolResponse) :
    BriefDetails n (toolAuditDetails request decision response) := by
  unfold toolAuditDetails
  rcases boundJson_cases hn hmax (brief_boundedParamsJson hn hkeys) with
    ⟨params, hparams, hbrief⟩ | ⟨what, hwhat, hlen⟩
  swap
  · rw [hwhat]
    exact hlen
  rw [hparams, ok_bind]
  rcases boundJson_cases hn hmax (brief_evidenceRefsJson hn response.evidence) with
    ⟨refs, hrefs, hbrief'⟩ | ⟨what, hwhat, hlen⟩
  swap
  · rw [hwhat]
    exact hlen
  rw [hrefs, ok_bind]
  have hbound := isBrief_boundAuditString hn
  have hallowed : IsAscii (ascii (if decision.allowed then "true" else "false")) := by
    split_ifs <;> decide
  refine briefDetails_ofList ?_
  simp only [List.forall_mem_cons]
  refine ⟨⟨?_, hbound _⟩, ⟨?_, hbound _⟩, ⟨?_, isBrief_of_isAscii (isAscii_riskClass _)⟩,
    ⟨?_, hbrief⟩, ⟨?_, isBrief_of_isAscii hallowed⟩, ⟨?_, hbound _⟩,
    ⟨?_, isBrief_of_isAscii (isAscii_toolStatus _)⟩, ⟨?_, hbound _⟩,
    ⟨?_, isBrief_of_isAscii (isAscii_decimal _)⟩, ⟨?_, hbrief'⟩,
    ⟨?_, isBrief_of_isAscii (isAscii_toolStatus _)⟩, by simp⟩
  all_goals exact isBrief_of_isAscii (by decide)

variable (prompt : Bytes) (request : ToolRequest)

theorem briefDetails_skipped (response : ToolResponse) :
    BriefDetails n (skippedDetails prompt request response) := by
  have hbound := isBrief_boundAuditString hn
  refine @briefDetails_refs n hn hmax response.evidence
    [(ascii "request_id", boundAuditString request.id), (ascii "prompt", boundAuditString prompt),
      (ascii "tool_status", response.status.toString),
      (ascii "reason", boundAuditString response.message),
      (ascii "evidence_count", decimal response.evidence.length)] ?_
  simp only [List.forall_mem_cons]
  refine ⟨⟨?_, hbound _⟩, ⟨?_, hbound _⟩, ⟨?_, isBrief_of_isAscii (isAscii_toolStatus _)⟩,
    ⟨?_, hbound _⟩, ⟨?_, isBrief_of_isAscii (isAscii_decimal _)⟩, by simp⟩
  all_goals exact isBrief_of_isAscii (by decide)

theorem briefDetails_modelContext (evidence : List Evidence) :
    BriefDetails n (modelContextDetails prompt request evidence) := by
  have hbound := isBrief_boundAuditString hn
  refine @briefDetails_refs n hn hmax evidence
    [(ascii "request_id", boundAuditString request.id), (ascii "prompt", boundAuditString prompt),
      (ascii "evidence_count", decimal evidence.length)] ?_
  simp only [List.forall_mem_cons]
  refine ⟨⟨?_, hbound _⟩, ⟨?_, hbound _⟩, ⟨?_, isBrief_of_isAscii (isAscii_decimal _)⟩, by simp⟩
  all_goals exact isBrief_of_isAscii (by decide)

theorem briefDetails_modelError {error : Bytes} (herror : IsBrief n error)
    (evidence : List Evidence) :
    BriefDetails n (modelErrorDetails prompt request error evidence) := by
  have hbound := isBrief_boundAuditString hn
  refine @briefDetails_refs n hn hmax evidence
    [(ascii "request_id", boundAuditString request.id), (ascii "prompt", boundAuditString prompt),
      (ascii "error", error), (ascii "evidence_count", decimal evidence.length)] ?_
  simp only [List.forall_mem_cons]
  refine ⟨⟨?_, hbound _⟩, ⟨?_, hbound _⟩, ⟨?_, herror⟩,
    ⟨?_, isBrief_of_isAscii (isAscii_decimal _)⟩, by simp⟩
  all_goals exact isBrief_of_isAscii (by decide)

omit hmax in
theorem briefDetails_answer (answer : Bytes) :
    BriefDetails n (.ok (answerDetails request answer)) := by
  have hbound := isBrief_boundAuditString hn
  refine briefDetails_ofList ?_
  simp only [List.forall_mem_cons]
  refine ⟨⟨?_, hbound _⟩, ⟨?_, isBrief_of_isAscii (by decide)⟩,
    ⟨?_, isBrief_of_isAscii (by decide)⟩, ⟨?_, isBrief_of_isAscii (isAscii_decimal _)⟩,
    ⟨?_, hbound _⟩, by simp⟩
  all_goals exact isBrief_of_isAscii (by decide)

end

/-! ### Records -/

section

variable (hn : maxAuditJsonBytes ≤ n) (hmax : n < 10 ^ 20)
  {service : SessionService} (host : Host) (hpath : service.audit.path.length ≤ n)
  {actor : Bytes} (hactor : IsAscii actor)

theorem brief_event {event : AuditEvent} (hid : IsAscii event.id)
    (htimestamp : IsAscii event.timestamp) (hactor : IsAscii event.actor)
    (htype : IsAscii event.type) (hsummary : IsBrief n event.summary)
    (hdetails : BriefDetails n (.ok event.details)) : event.toJson.Each (IsBrief n) := by
  have hmap : (stringMapJson event.details).Each (IsBrief n) := by
    refine each_object ?_
    rw [List.forall_mem_map]
    exact fun e he => ⟨(hdetails e he).1, each_string (hdetails e he).2⟩
  have hascii {s : Bytes} (h : IsAscii s) := each_string (@isBrief_of_isAscii n s h)
  refine each_ofPairs ?_
  simp only [List.forall_mem_cons]
  refine ⟨⟨?_, hascii hid⟩, ⟨?_, hascii htimestamp⟩, ⟨?_, hascii hactor⟩, ⟨?_, hascii htype⟩,
    ⟨?_, each_string hsummary⟩, ⟨?_, hmap⟩, by simp⟩
  all_goals exact isBrief_of_isAscii (by decide)

include hmax hpath in
theorem yields_append {event : AuditEvent} (h : event.toJson.Each (IsBrief n)) :
    Run.Yields (fun _ => True) (ShortText (n + 100)) (service.audit.append host event) := by
  have hlong {what : Bytes} (h : what.length ≤ 27) :
      ShortText (n + 100) (.std (what ++ service.audit.path)) :=
    shortText_std (by rw [List.length_append]; omega)
  have hdump := (yields_dump hmax h).imp (fun _ h => h) fun _ hshort what heq =>
    (hshort what heq).trans (Nat.le_add_left 100 n)
  refine hdump.bind fun record _ => ?_
  refine (Run.yields_ask (p := fun _ => True) (fun _ _ _ => trivial)
    fun _ _ herror => by cases herror).bind fun outcome _ => ?_
  cases outcome with
  | written => exact Run.yields_emit _
  | notOpened => exact Run.yields_throw (hlong (by decide))
  | notWritten => exact Run.yields_throw (hlong (by decide))

include hmax hpath hactor in
/-- A record is written, or what is thrown is short. -/
theorem yields_record {type summary : Bytes} {details : Except Bytes (OrderedMap Bytes Bytes)}
    (htype : IsAscii type) (hsummary : IsBrief n summary) (hdetails : BriefDetails n details) :
    Run.Yields (fun _ => True) (ShortText (n + 100))
      (service.audit.record host actor type summary details) := by
  have hid : Run.Yields IsAscii (ShortText (n + 100)) (makeEventId host) :=
    { returns := fun {σ _ _} hrun => by
        obtain ⟨id, h, hascii⟩ := makeEventId_apply host σ
        obtain rfl := Except.ok.inj (Prod.mk.inj (h.symm.trans hrun)).2
        exact hascii
      throws := fun {σ _ _} hrun => by
        obtain ⟨id, h, -⟩ := makeEventId_apply host σ
        cases (Prod.mk.inj (h.symm.trans hrun)).2 }
  have htimestamp : Run.Yields IsAscii (ShortText (n + 100)) (utcTimestamp host) :=
    Run.yields_ask (fun _ _ h => Except.ok.inj h ▸ isAscii_formatUtc _) fun _ _ h => by cases h
  refine hid.bind fun id hid => htimestamp.bind fun timestamp htimestamp => ?_
  cases details with
  | error what => exact Run.yields_throw (shortText_std (hdetails.trans (by omega)))
  | ok details =>
    rw [ofExcept_ok, Run.pure_bind]
    exact yields_append hmax host hpath
      (brief_event hid htimestamp hactor htype hsummary hdetails)

/-! ### Calls -/

variable {p : ToolResponse → Prop} {request : ToolRequest}
  (hrespond : Run.Yields p (fun _ => False) (service.respond request))
  (hkeys : ∀ e ∈ request.params.entries, Valid e.1)

include hn hmax hpath hactor hrespond hkeys

theorem yields_callTool :
    Run.Yields p (ShortText (n + 100)) (service.callTool host request actor) := by
  refine (hrespond.imp (fun _ h => h) fun _ h => h.elim).bind fun response hresponse => ?_
  refine (yields_record hmax host hpath hactor (by decide) (isBrief_boundAuditString hn _)
    (briefDetails_toolAudit hn hmax hkeys _ _)).bind fun _ _ => ?_
  exact Run.yields_pure hresponse

/-- An answer within its bound, or a short error. -/
def ShortResult (n : ℕ) (result : AskResult) : Prop :=
  if result.ok then result.answer.length ≤ n else result.error.length ≤ n + 100

omit hrespond hkeys in
theorem yields_modelError (question : ModelRequest) {error : Exn} (h : ShortText (n + 100) error) :
    Run.Yields (ShortResult n) (ShortText (n + 100))
      (service.modelError host question request actor error) := by
  have hbound := isBrief_boundAuditString hn
  cases error with
  | std what =>
    refine (yields_record hmax host hpath hactor (by decide) (hbound _)
      (briefDetails_modelError hn hmax _ _ (hbound _) _)).bind fun _ _ => Run.yields_pure ?_
    exact h what rfl
  | other =>
    have hunknown : unknownModelError.length ≤ 100 := by decide
    refine (yields_record hmax host hpath hactor (by decide) (hbound _)
      (briefDetails_modelError hn hmax _ _ (isBrief_of_isAscii (by decide)) _)).bind fun _ _ =>
        Run.yields_pure ?_
    exact hunknown.trans (Nat.le_add_left _ _)

theorem yields_askWithTool (prompt : Bytes) {model : ModelProvider}
    (hmessage : ∀ response, p response → response.message.length ≤ n)
    (hanswer : ∀ τ question answer, model.complete τ question = .ok answer → answer.length ≤ n)
    (hfailure : ∀ τ question error, model.complete τ question = .error error → ShortText n error) :
    Run.Yields (ShortResult n) (ShortText (n + 100))
      (service.askWithTool host prompt request model actor) := by
  have hbound := isBrief_boundAuditString hn
  refine (yields_callTool hn hmax host hpath hactor hrespond hkeys).bind
    fun response hresponse => ?_
  split_ifs
  · refine (yields_record hmax host hpath hactor (by decide) (hbound _)
      (briefDetails_skipped hn hmax _ _ _)).bind fun _ _ => Run.yields_pure ?_
    have htext : (ascii "tool call did not succeed: ").length ≤ 100 := by decide
    have hlen := hmessage response hresponse
    simp only [ShortResult, Bool.false_eq_true, if_false, List.length_append]
    omega
  · refine (yields_record hmax host hpath hactor (by decide) (hbound _)
      (briefDetails_modelContext hn hmax _ _ _)).bind fun _ _ => ?_
    refine Run.Yields.tryCatch ?_ fun error herror =>
      yields_modelError hn hmax host hpath hactor _ herror
    have hask : Run.Yields (fun answer : Bytes => answer.length ≤ n) (ShortText (n + 100))
        (model.ask { prompt, evidence := response.evidence }) :=
      (Run.yields_emit _).bind fun _ _ => Run.yields_ask (fun _ _ h => hanswer _ _ _ h)
        fun _ _ h what heq => (hfailure _ _ _ h what heq).trans (Nat.le_add_right _ _)
    refine hask.bind fun answer hanswer => ?_
    refine (yields_record hmax host hpath hactor (by decide) (isBrief_of_isAscii (by decide))
      (briefDetails_answer hn _ _)).bind fun _ _ => Run.yields_pure ?_
    exact hanswer

end

end

end Kasli.Session
