import Kasli.Session.SessionService

/-! Which tool a call runs. The broker's table is a snapshot of the registry; tools may
be added, or be refused, before and after it. A call runs the tool that bore the name
at the snapshot, if that tool is read-only, and no tool otherwise. What the request
claims of its risk decides nothing. -/

namespace Kasli.Session

open Core Policy Audit Tools

/-- The tool whose call a request reaches. -/
def SessionService.reached (service : SessionService) (request : ToolRequest) : Option Tool :=
  if (service.policy.decide request).allowed then service.registry.find request.toolName else none

section

variable {service : SessionService} {host : Host} {request : ToolRequest}
    {actor : Bytes} {σ : History}

theorem respond_of_reached {tool : Tool} (h : service.reached request = some tool) (σ : History) :
    (service.respond request).run σ =
      (((tool.call request).run σ).1, .ok (settle request ((tool.call request).run σ).2)) := by
  unfold SessionService.reached at h
  split_ifs at h with hd
  exact respond_of_found service request hd h σ

theorem respond_of_none (h : service.reached request = none) (σ : History) :
    ∃ response, (service.respond request).run σ = ([], .ok response) ∧
      response.status = .denied := by
  unfold SessionService.reached at h
  split_ifs at h with hd
  · exact ⟨_, by rw [respond_of_unregistered service request hd h, Run.run_pure], rfl⟩
  · rw [Bool.not_eq_true] at hd
    exact ⟨_, by rw [respond_of_denied service request hd, Run.run_pure], rfl⟩

/-- A call adds what responding adds and records, and returns the response if anything. -/
theorem callTool_history (host : Host) (actor : Bytes) {ex : History} {response : ToolResponse}
    (hr : (service.respond request).run σ = (ex, .ok response)) :
    ∃ rest result, (service.callTool host request actor).run σ = (ex ++ rest, result) ∧
      executions rest = [] ∧ ∀ returned, result = .ok returned → returned = response := by
  rcases callTool_cases service host request actor hr with ⟨event, -, h⟩ | ⟨what, h⟩
  · exact ⟨_, _, h, rfl, fun returned hreturned => (Except.ok.inj hreturned).symm⟩
  · exact ⟨_, _, h, rfl, fun returned hreturned => by cases hreturned⟩

/-- The first execution is the reached tool's own. -/
theorem executions_call (tool : Tool) (request : ToolRequest) (σ : History) :
    ∃ nested, executions ((tool.call request).run σ).1 = (tool.name, request) :: nested := by
  rw [Tool.call, Run.run_emit_bind]
  exact ⟨_, executions_executed ..⟩

theorem callTool_of_reached (host : Host) (actor : Bytes) (σ : History) {tool : Tool}
    (h : service.reached request = some tool) :
    ∃ rest result, (service.callTool host request actor).run σ =
        (((tool.call request).run σ).1 ++ rest, result) ∧ executions rest = [] ∧
      ∀ response, result = .ok response → response = settle request ((tool.call request).run σ).2 :=
  callTool_history host actor (respond_of_reached h σ)

theorem callTool_of_none (h : service.reached request = none) :
    ∃ rest result, (service.callTool host request actor).run σ = (rest, result) ∧
      executions rest = [] ∧ ∀ response, result = .ok response → response.status = .denied := by
  obtain ⟨response, hr, hstatus⟩ := respond_of_none h σ
  obtain ⟨rest, result, hc, hrest, hreturned⟩ := callTool_history host actor hr
  exact ⟨rest, result, hc, hrest, fun returned h => hreturned returned h ▸ hstatus⟩

end

/-! ### A broker made at a snapshot -/

/-- The service after the additions `before`, the making of its broker, and the additions
`after`. -/
def snapshotService (before after : List (Option Tool)) (audit : AuditLog) : SessionService :=
  { registry := (ToolRegistry.empty.addAll before).addAll after
    policy := .ofPolicies (ToolRegistry.empty.addAll before).policies
    audit }

theorem reached_snapshotService (before after : List (Option Tool)) (audit : AuditLog)
    (request : ToolRequest) (tool : Tool) :
    (snapshotService before after audit).reached request = some tool ↔
      tool ∈ (ToolRegistry.empty.addAll before).tools ∧ tool.name = request.toolName ∧
        tool.risk = .readOnly := by
  have hallowed : ((snapshotService before after audit).policy.decide request).allowed = true ↔
      ((ToolRegistry.empty.addAll before).find request.toolName).map Tool.risk =
        some .readOnly := by
    rw [decide_allowed_iff, snapshotService, ToolRegistry.allowedTools_policies]
  have hfind : ∀ t, (ToolRegistry.empty.addAll before).find request.toolName = some t →
      (snapshotService before after audit).registry.find request.toolName = some t := fun t h =>
    ToolRegistry.find_addAll after h
  unfold SessionService.reached
  constructor
  · intro h
    split_ifs at h with hd
    obtain ⟨t, ht, hrisk⟩ := Option.map_eq_some_iff.mp (hallowed.mp hd)
    obtain rfl := Option.some.inj ((hfind t ht).symm.trans h)
    obtain ⟨hmem, hname⟩ := ToolRegistry.find_eq_some_iff.mp ht
    exact ⟨hmem, hname, hrisk⟩
  · rintro ⟨hmem, hname, hrisk⟩
    have ht := ToolRegistry.find_eq_some_iff.mpr ⟨hmem, hname⟩
    rw [if_pos (hallowed.mpr (by rw [ht, Option.map_some, hrisk])), hfind tool ht]

/-- The claimed risk is not read. -/
theorem reached_risk (service : SessionService) (request : ToolRequest) (risk : RiskClass) :
    service.reached { request with risk } = service.reached request := by
  have hd : service.policy.decide { request with risk } = service.policy.decide request :=
    decide_eq_of_toolName _ rfl
  simp only [SessionService.reached, hd]

/-- A call runs the tool that was registered under its name at the snapshot as read-only,
whatever was added or refused since; with none it runs nothing and is denied. -/
theorem callTool_mediated (before after : List (Option Tool)) (audit : AuditLog) (host : Host)
    (request : ToolRequest) (actor : Bytes) (σ : History) :
    (∀ tool ∈ (ToolRegistry.empty.addAll before).tools, tool.name = request.toolName →
      tool.risk = .readOnly → ∃ rest result,
        ((snapshotService before after audit).callTool host request actor).run σ =
          (((tool.call request).run σ).1 ++ rest, result) ∧ executions rest = [] ∧
        (∃ nested, executions ((tool.call request).run σ).1 = (tool.name, request) :: nested) ∧
        ∀ response, result = .ok response →
          response = settle request ((tool.call request).run σ).2) ∧
    ((∀ tool ∈ (ToolRegistry.empty.addAll before).tools, tool.name = request.toolName →
      tool.risk ≠ .readOnly) → ∃ rest result,
        ((snapshotService before after audit).callTool host request actor).run σ = (rest, result) ∧
        executions rest = [] ∧ ∀ response, result = .ok response → response.status = .denied) ∧
    (∀ tool ∈ (ToolRegistry.empty.addAll before).tools,
      ∀ tool' ∈ (ToolRegistry.empty.addAll before).tools, tool.name = tool'.name → tool = tool') ∧
    (∀ risk, (snapshotService before after audit).policy.decide { request with risk } =
        (snapshotService before after audit).policy.decide request ∧
      (snapshotService before after audit).reached { request with risk } =
        (snapshotService before after audit).reached request) ∧
    ∀ tool what, ((ToolRegistry.empty.addAll before).add tool).2 = .error what →
      ((ToolRegistry.empty.addAll before).add tool).1 = ToolRegistry.empty.addAll before := by
  refine ⟨fun tool hmem hname hrisk => ?_, fun hnone => ?_, fun tool hmem tool' hmem' hname => ?_,
    fun risk => ⟨decide_eq_of_toolName _ rfl, reached_risk _ request risk⟩, fun tool what h =>
      ToolRegistry.add_rejected h⟩
  · obtain ⟨rest, result, hc, hrest, hreturned⟩ := callTool_of_reached host actor σ
      ((reached_snapshotService before after audit request tool).mpr ⟨hmem, hname, hrisk⟩)
    exact ⟨rest, result, hc, hrest, executions_call tool request σ, hreturned⟩
  · apply callTool_of_none
    rw [Option.eq_none_iff_forall_ne_some]
    intro tool h
    obtain ⟨hmem, hname, hrisk⟩ := (reached_snapshotService before after audit request tool).mp h
    exact hnone tool hmem hname hrisk
  · have h := ToolRegistry.find_eq_some_iff.mpr ⟨hmem, hname⟩
    have h' := ToolRegistry.find_eq_some_iff.mpr ⟨hmem', rfl⟩
    exact Option.some.inj (h.symm.trans h')

end Kasli.Session
