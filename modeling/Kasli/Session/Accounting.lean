import Kasli.Session.Mediation
import Kasli.Session.Recordable

/-! Executions against records. A history tells which tools ran and for which calls there
is a record that a tool ran. A call adds the executions of its tool to the first and, if
it is recorded, its tool to the second; nothing else that the session does adds to
either. -/

namespace Kasli.Session

open Core Policy Audit Tools

/-- The names of the tools that ran, in order. -/
def executedTools (σ : History) : List Bytes := (executions σ).map Prod.fst

/-- The tool that `event` records to have run. -/
def recordedTool (event : AuditEvent) : Option Bytes :=
  if event.type = ascii "tool.call" ∧ event.details.find? (ascii "status") ∈
      [some (ascii "ok"), some (ascii "error")] then
    event.details.find? (ascii "tool_name")
  else none

/-- The names of the tools that are recorded to have run, in order. -/
def recordedTools (σ : History) : List Bytes := (events σ).filterMap recordedTool

/-- Neither an execution nor the record of a call. -/
def IsAside : Action → Prop
  | .executed _ _ => False
  | .appended event => event.type ≠ ascii "tool.call"
  | _ => True

section

variable (σ τ : History)

@[simp] theorem executedTools_append :
    executedTools (σ ++ τ) = executedTools σ ++ executedTools τ := by
  simp [executedTools]

@[simp] theorem recordedTools_append :
    recordedTools (σ ++ τ) = recordedTools σ ++ recordedTools τ := by
  simp [recordedTools, List.filterMap_append]

end

theorem executedTools_of_asides {s : History} (h : ∀ a ∈ s, IsAside a) : executedTools s = [] := by
  rw [executedTools, List.map_eq_nil_iff, executions, List.filterMap_eq_nil_iff]
  intro a ha
  have hx := h a ha
  cases a with
  | executed tool request => exact hx.elim
  | _ => rfl

theorem recordedTools_of_asides {s : History} (h : ∀ a ∈ s, IsAside a) : recordedTools s = [] := by
  rw [recordedTools, List.filterMap_eq_nil_iff]
  intro event he
  have hx := h _ (mem_events.mp he)
  exact if_neg fun hc => hx hc.1

theorem recordedTools_respond {service : SessionService} {request : ToolRequest} {σ ex : History}
    {response : ToolResponse} (hr : (service.respond request).run σ = (ex, .ok response)) :
    recordedTools ex = [] := by
  obtain ⟨s, r, hr', hs⟩ := respond_ok service request σ
  obtain rfl := (Prod.mk.inj (hr.symm.trans hr')).1
  rw [recordedTools, events_of_executions hs, List.filterMap_nil]

/-! ### The record of a call -/

section

variable {service : SessionService} {host : Host} {request : ToolRequest} {actor : Bytes}
  {response : ToolResponse}

theorem recordedTool_of_isToolCall {event : AuditEvent}
    (h : IsToolCall service request actor response event) : recordedTool event =
      if response.status = .denied then none else some (boundAuditString request.toolName) := by
  have hstatus := h.status
  have hname : event.details.find? (ascii "tool_name") = some (boundAuditString request.toolName) :=
    h.toolName
  rw [recordedTool, h.type, hstatus, hname]
  cases response.status with
  | denied => exact if_neg (by decide)
  | _ => exact if_pos (by decide)

/-- The record of a call with `response` can be written. -/
def CallRecordable (service : SessionService) (request : ToolRequest) (actor : Bytes)
    (response : ToolResponse) : Prop :=
  Recordable actor (ascii "tool.call") (boundAuditString request.toolName)
    (toolAuditDetails request (service.policy.decide request) response)

variable {σ ex : History} (hr : (service.respond request).run σ = (ex, .ok response))

include hr

theorem recordedTools_of_recordable (hw : host.Writable) (hstatus : response.status ≠ .denied)
    (h : CallRecordable service request actor response) :
    recordedTools ((service.callTool host request actor).run σ).1 =
      [boundAuditString request.toolName] := by
  have hquiet := recordedTools_respond hr
  obtain ⟨d, hd, he⟩ := h
  obtain ⟨event, hc, hrec⟩ := record_of_recordable service.audit host actor (ascii "tool.call")
    (boundAuditString request.toolName)
    (toolAuditDetails request (service.policy.decide request) response)
    hw hd he (σ ++ ex)
  have hcall := recordedTool_of_isToolCall ⟨d, hd, hc⟩
  rw [if_neg hstatus] at hcall
  unfold SessionService.callTool
  rw [Run.run_bind_of_ok hr, Run.run_bind_of_ok hrec, recordedTools_append, hquiet]
  simp only [recordedTools, Run.run_pure, List.append_nil, events_issued,
    events_appended, events_nil, List.filterMap_cons, hcall, List.filterMap_nil, List.nil_append]

theorem recordedTools_of_not_recordable (h : ¬ CallRecordable service request actor response) :
    recordedTools ((service.callTool host request actor).run σ).1 = [] := by
  obtain ⟨what, -, hrec⟩ := record_of_not_recordable service.audit host actor (ascii "tool.call")
    (boundAuditString request.toolName)
    (toolAuditDetails request (service.policy.decide request) response)
    h (fun _ => isAscii_of_toolAuditDetails_error) (σ ++ ex)
  unfold SessionService.callTool
  rw [Run.run_bind_of_ok hr, Run.run_bind_of_error hrec, recordedTools_append,
    recordedTools_respond hr]
  rfl

theorem recordedTools_of_denied (hstatus : response.status = .denied) :
    recordedTools ((service.callTool host request actor).run σ).1 = [] := by
  rcases callTool_cases service host request actor hr with ⟨event, hcall, hc⟩ | ⟨what, hc⟩
  · have hrecorded := recordedTool_of_isToolCall hcall
    rw [if_pos hstatus] at hrecorded
    rw [hc, recordedTools_append, recordedTools_respond hr]
    simp [recordedTools, hrecorded]
  · rw [hc, recordedTools_append, recordedTools_respond hr]
    rfl

/-- Besides its tool's executions a call adds none. -/
theorem executedTools_callTool :
    executedTools ((service.callTool host request actor).run σ).1 = executedTools ex := by
  obtain ⟨rest, result, hc, hrest, -⟩ := callTool_history host actor hr
  rw [hc, executedTools_append, executedTools, executedTools, hrest, List.map_nil, List.append_nil]

end

/-! ### What an ask adds to a call -/

section

variable (service : SessionService) (host : Host)

theorem only_record (log : AuditLog) {actor type summary : Bytes}
    {details : Except Bytes (OrderedMap Bytes Bytes)} (htype : type ≠ ascii "tool.call") :
    Run.Only IsAside (log.record host actor type summary details) :=
  record_only log host actor type summary details trivial fun _ _ _ hc ht =>
    htype ((congrArg Content.type hc).symm.trans ht)

theorem only_complete (model : ModelProvider) (question : ModelRequest) (request : ToolRequest)
    (actor : Bytes) : Run.Only IsAside (service.complete host model question request actor) :=
  ((Run.only_emit trivial).bind fun _ => Run.only_ask _ _).bind fun _ =>
    (only_record host service.audit (by decide)).bind fun _ => Run.only_pure _ _

theorem only_modelError (question : ModelRequest) (request : ToolRequest)
    (actor : Bytes) (error : Exn) :
    Run.Only IsAside (service.modelError host question request actor error) := by
  cases error with
  | std what => exact (only_record host service.audit (by decide)).bind fun _ => Run.only_pure _ _
  | other => exact (only_record host service.audit (by decide)).bind fun _ => Run.only_pure _ _

/-- An ask adds what its call adds, and asides. -/
theorem askWithTool_adds (prompt : Bytes) (request : ToolRequest)
    (model : ModelProvider) (actor : Bytes)
    (σ : History) : ∃ rest, ((service.askWithTool host prompt request model actor).run σ).1 =
      ((service.callTool host request actor).run σ).1 ++ rest ∧ ∀ a ∈ rest, IsAside a := by
  refine Run.bind_adds (fun response => ?_) σ
  dsimp only
  split_ifs
  · exact (only_record host service.audit (by decide)).bind fun _ => Run.only_pure _ _
  · exact (only_record host service.audit (by decide)).bind fun _ =>
      (only_complete service host model _ request actor).tryCatch fun error =>
        only_modelError service host _ request actor error

end

end Kasli.Session
