import Kasli.Core.Types

/-! The policy broker (`policy/policy_broker.cpp`): a table of trusted risk classes, by
tool name. The risk class a request claims is not read. -/

namespace Kasli.Policy

open Core

structure PolicyDecision where
  allowed : Bool
  reason : Bytes
  deriving DecidableEq

structure ToolPolicy where
  toolName : Bytes
  risk : RiskClass
  deriving DecidableEq

structure PolicyBroker where
  allowedTools : OrderedMap Bytes RiskClass
  deriving DecidableEq

/-- The constructor; the first policy of a name counts. -/
def PolicyBroker.ofPolicies (allowedTools : List ToolPolicy) : PolicyBroker :=
  ⟨OrderedMap.ofList (allowedTools.map fun tool => (tool.toolName, tool.risk))⟩

def PolicyBroker.decide (policy : PolicyBroker) (request : ToolRequest) : PolicyDecision :=
  match policy.allowedTools.find? request.toolName with
  | none => { allowed := false, reason := ascii "tool is not registered in policy allowlist" }
  | some risk =>
    if risk ≠ .readOnly then
      { allowed := false, reason := ascii "only read-only tools are allowed in v1" }
    else
      { allowed := true, reason := ascii "read-only tool allowed" }

/-- A request is allowed exactly when the table has its tool as read-only. -/
theorem decide_allowed_iff (policy : PolicyBroker) (request : ToolRequest) :
    (policy.decide request).allowed = true ↔
      policy.allowedTools.find? request.toolName = some .readOnly := by
  unfold PolicyBroker.decide
  cases policy.allowedTools.find? request.toolName with
  | none => simp
  | some risk => cases risk <;> simp

theorem isAscii_reason (policy : PolicyBroker) (request : ToolRequest) :
    IsAscii (policy.decide request).reason := by
  unfold PolicyBroker.decide
  split
  · decide
  · split_ifs
    · decide
    · decide

/-- Only the name of a request decides. -/
theorem decide_eq_of_toolName (policy : PolicyBroker) {r r' : ToolRequest}
    (h : r.toolName = r'.toolName) : policy.decide r = policy.decide r' := by
  simp only [PolicyBroker.decide, h]

end Kasli.Policy
