import Kasli.Json.Access

/-! The data of the program (`core/types.cpp`) and its JSON form. Parameters and audit
details are maps, so a list of them keeps the first value of a key, in key order. -/

namespace Kasli.Core

inductive RiskClass
  | readOnly
  | lowRiskUser
  | admin
  | destructive
  deriving DecidableEq, Repr

inductive ToolStatus
  | ok
  | denied
  | error
  deriving DecidableEq, Repr

structure Evidence where
  id : Bytes
  source : Bytes
  summary : Bytes
  body : Bytes
  timestamp : Bytes
  deriving DecidableEq

structure ToolRequest where
  id : Bytes
  toolName : Bytes
  risk : RiskClass
  params : OrderedMap Bytes Bytes
  deriving DecidableEq

structure ToolResponse where
  requestId : Bytes
  status : ToolStatus
  message : Bytes
  evidence : List Evidence
  deriving DecidableEq

structure AuditEvent where
  id : Bytes
  timestamp : Bytes
  actor : Bytes
  type : Bytes
  summary : Bytes
  details : OrderedMap Bytes Bytes
  deriving DecidableEq

/-- What a model is asked (`model/model_provider.hpp`). -/
structure ModelRequest where
  prompt : Bytes
  evidence : List Evidence
  deriving DecidableEq

def RiskClass.toString : RiskClass → Bytes
  | .readOnly => ascii "read_only"
  | .lowRiskUser => ascii "low_risk_user"
  | .admin => ascii "admin"
  | .destructive => ascii "destructive"

/-- A message as `what()` gives it: a C string, which ends at the first NUL. -/
def whatOf (message : Bytes) : Bytes := message.takeWhile (· ≠ 0)

def riskClassFromString (value : Bytes) : Except Bytes RiskClass :=
  if value = ascii "read_only" then .ok .readOnly
  else if value = ascii "low_risk_user" then .ok .lowRiskUser
  else if value = ascii "admin" then .ok .admin
  else if value = ascii "destructive" then .ok .destructive
  else .error (whatOf (ascii "unknown risk class: " ++ value))

def ToolStatus.toString : ToolStatus → Bytes
  | .ok => ascii "ok"
  | .denied => ascii "denied"
  | .error => ascii "error"

def toolStatusFromString (value : Bytes) : Except Bytes ToolStatus :=
  if value = ascii "ok" then .ok .ok
  else if value = ascii "denied" then .ok .denied
  else if value = ascii "error" then .ok .error
  else .error (whatOf (ascii "unknown tool status: " ++ value))

/-- A risk class is read back from its name. -/
theorem riskClassFromString_toString (risk : RiskClass) :
    riskClassFromString risk.toString = .ok risk := by
  cases risk <;> decide

theorem toolStatusFromString_toString (status : ToolStatus) :
    toolStatusFromString status.toString = .ok status := by
  cases status <;> decide

theorem isAscii_riskClass (risk : RiskClass) : IsAscii risk.toString := by
  cases risk <;> decide

theorem isAscii_toolStatus (status : ToolStatus) : IsAscii status.toString := by
  cases status <;> decide

theorem toolStatus_injective {s t : ToolStatus} (h : s.toString = t.toString) : s = t := by
  revert h
  cases s <;> cases t <;> decide

/-! ### JSON -/

/-- A map of strings as an object. -/
def stringMapJson (m : OrderedMap Bytes Bytes) : Json :=
  .object (m.entries.map fun e => (e.1, .string e.2))

def Evidence.toJson (evidence : Evidence) : Json :=
  .ofPairs [(ascii "id", .string evidence.id), (ascii "source", .string evidence.source),
    (ascii "summary", .string evidence.summary), (ascii "body", .string evidence.body),
    (ascii "timestamp", .string evidence.timestamp)]

def Evidence.fromJson (json : Json) : Except Bytes Evidence := do
  let id ← (← json.at? (ascii "id")).getString
  let source ← (← json.at? (ascii "source")).getString
  let summary ← (← json.at? (ascii "summary")).getString
  let body ← (← json.at? (ascii "body")).getString
  let timestamp ← (← json.at? (ascii "timestamp")).getString
  return { id, source, summary, body, timestamp }

def ToolRequest.toJson (request : ToolRequest) : Json :=
  .ofPairs [(ascii "id", .string request.id), (ascii "tool_name", .string request.toolName),
    (ascii "risk", .string request.risk.toString), (ascii "params", stringMapJson request.params)]

def ToolRequest.fromJson (json : Json) : Except Bytes ToolRequest := do
  let id ← (← json.at? (ascii "id")).getString
  let toolName ← (← json.at? (ascii "tool_name")).getString
  let risk ← riskClassFromString (← (← json.at? (ascii "risk")).getString)
  let params ← json.valueStringMap (ascii "params")
  return { id, toolName, risk, params }

def ToolResponse.toJson (response : ToolResponse) : Json :=
  .ofPairs [(ascii "request_id", .string response.requestId),
    (ascii "status", .string response.status.toString), (ascii "message", .string response.message),
    (ascii "evidence", .array (response.evidence.map Evidence.toJson))]

def ToolResponse.fromJson (json : Json) : Except Bytes ToolResponse := do
  let requestId ← (← json.at? (ascii "request_id")).getString
  let status ← toolStatusFromString (← (← json.at? (ascii "status")).getString)
  let message ← (← json.at? (ascii "message")).getString
  let evidence ← json.valueList Evidence.fromJson (ascii "evidence")
  return { requestId, status, message, evidence }

def AuditEvent.toJson (event : AuditEvent) : Json :=
  .ofPairs [(ascii "id", .string event.id), (ascii "timestamp", .string event.timestamp),
    (ascii "actor", .string event.actor), (ascii "type", .string event.type),
    (ascii "summary", .string event.summary), (ascii "details", stringMapJson event.details)]

def AuditEvent.fromJson (json : Json) : Except Bytes AuditEvent := do
  let id ← (← json.at? (ascii "id")).getString
  let timestamp ← (← json.at? (ascii "timestamp")).getString
  let actor ← (← json.at? (ascii "actor")).getString
  let type ← (← json.at? (ascii "type")).getString
  let summary ← (← json.at? (ascii "summary")).getString
  let details ← json.valueStringMap (ascii "details")
  return { id, timestamp, actor, type, summary, details }

/-! ### Strings that are well formed -/

open Utf8

/-- All strings of the request are well-formed UTF-8. -/
structure ToolRequest.Valid (request : ToolRequest) : Prop where
  id : Utf8.Valid request.id
  toolName : Utf8.Valid request.toolName
  params : ∀ e ∈ request.params.entries, Utf8.Valid e.1 ∧ Utf8.Valid e.2

structure Evidence.Valid (evidence : Evidence) : Prop where
  id : Utf8.Valid evidence.id
  source : Utf8.Valid evidence.source
  summary : Utf8.Valid evidence.summary
  body : Utf8.Valid evidence.body
  timestamp : Utf8.Valid evidence.timestamp

structure ToolResponse.Valid (response : ToolResponse) : Prop where
  requestId : Utf8.Valid response.requestId
  message : Utf8.Valid response.message
  evidence : ∀ e ∈ response.evidence, e.Valid

theorem encodable_stringMapJson {m : OrderedMap Bytes Bytes} :
    (stringMapJson m).Encodable ↔ ∀ e ∈ m.entries, Utf8.Valid e.1 ∧ Utf8.Valid e.2 := by
  simp only [stringMapJson, Json.encodable_object, List.forall_mem_map, Json.encodable_string]

theorem Evidence.Valid.encodable {evidence : Evidence} (h : evidence.Valid) :
    evidence.toJson.Encodable := by
  rw [Evidence.toJson, Json.encodable_ofPairs (by simp only [List.map]; decide)]
  simp only [List.forall_mem_cons, Json.encodable_string, List.not_mem_nil,
    false_imp_iff, implies_true, and_true]
  exact ⟨⟨by decide, h.id⟩, ⟨by decide, h.source⟩, ⟨by decide, h.summary⟩, ⟨by decide, h.body⟩,
    by decide, h.timestamp⟩

theorem ToolResponse.Valid.encodable {response : ToolResponse} (h : response.Valid) :
    response.toJson.Encodable := by
  rw [ToolResponse.toJson, Json.encodable_ofPairs (by simp only [List.map]; decide)]
  simp only [List.forall_mem_cons, Json.encodable_string, Json.encodable_array, List.not_mem_nil,
    false_imp_iff, implies_true, and_true, List.forall_mem_map]
  exact ⟨⟨by decide, h.requestId⟩, ⟨by decide, valid_of_isAscii (isAscii_toolStatus _)⟩,
    ⟨by decide, h.message⟩, by decide, fun e he => (h.evidence e he).encodable⟩

/-- An event can be encoded when its five strings and its details are well formed. -/
theorem AuditEvent.encodable_iff (event : AuditEvent) :
    event.toJson.Encodable ↔ Utf8.Valid event.id ∧ Utf8.Valid event.timestamp ∧
      Utf8.Valid event.actor ∧ Utf8.Valid event.type ∧ Utf8.Valid event.summary ∧
      ∀ e ∈ event.details.entries, Utf8.Valid e.1 ∧ Utf8.Valid e.2 := by
  have hkeys : ∀ k ∈ ["id", "timestamp", "actor", "type", "summary", "details"],
      Utf8.Valid (ascii k) := by
    decide
  simp only [List.forall_mem_cons] at hkeys
  rw [AuditEvent.toJson, Json.encodable_ofPairs (by simp only [List.map]; decide)]
  simp [encodable_stringMapJson, hkeys]

end Kasli.Core
