import Kasli.Core.Types
import Kasli.Json.Parse

/-! Encoding and decoding the data of the program. What is encoded is a value that is read
back from its text, and decoding gives the data again, for every content of its strings,
lists and maps. -/

namespace Kasli.Core

/-! ### Decoding -/

theorem Evidence.fromJson_toJson (evidence : Evidence) :
    Evidence.fromJson evidence.toJson = .ok evidence := by
  unfold Evidence.fromJson Evidence.toJson
  rw [Json.at?_ofPairs (v := .string evidence.id) rfl,
    Json.at?_ofPairs (v := .string evidence.source) rfl,
    Json.at?_ofPairs (v := .string evidence.summary) rfl,
    Json.at?_ofPairs (v := .string evidence.body) rfl,
    Json.at?_ofPairs (v := .string evidence.timestamp) rfl]
  rfl

theorem ToolRequest.fromJson_toJson (request : ToolRequest) :
    ToolRequest.fromJson request.toJson = .ok request := by
  have hparams : (stringMapJson request.params).getStringMap = .ok request.params :=
    Json.getStringMap_entries request.params
  unfold ToolRequest.fromJson ToolRequest.toJson
  rw [Json.at?_ofPairs (v := .string request.id) rfl,
    Json.at?_ofPairs (v := .string request.toolName) rfl,
    Json.at?_ofPairs (v := .string request.risk.toString) rfl,
    Json.valueStringMap_ofPairs (v := stringMapJson request.params) rfl, hparams]
  simp only [bind, Except.bind, Json.getString_string, riskClassFromString_toString]
  rfl

theorem ToolResponse.fromJson_toJson (response : ToolResponse) :
    ToolResponse.fromJson response.toJson = .ok response := by
  have hevidence := Json.getList_map (l := response.evidence) fun e _ => e.fromJson_toJson
  unfold ToolResponse.fromJson ToolResponse.toJson
  rw [Json.at?_ofPairs (v := .string response.requestId) rfl,
    Json.at?_ofPairs (v := .string response.status.toString) rfl,
    Json.at?_ofPairs (v := .string response.message) rfl,
    Json.valueList_ofPairs (v := .array (response.evidence.map Evidence.toJson)) rfl, hevidence]
  simp only [bind, Except.bind, Json.getString_string, toolStatusFromString_toString]
  rfl

theorem AuditEvent.fromJson_toJson (event : AuditEvent) :
    AuditEvent.fromJson event.toJson = .ok event := by
  have hdetails : (stringMapJson event.details).getStringMap = .ok event.details :=
    Json.getStringMap_entries event.details
  unfold AuditEvent.fromJson AuditEvent.toJson
  rw [Json.at?_ofPairs (v := .string event.id) rfl,
    Json.at?_ofPairs (v := .string event.timestamp) rfl,
    Json.at?_ofPairs (v := .string event.actor) rfl, Json.at?_ofPairs (v := .string event.type) rfl,
    Json.at?_ofPairs (v := .string event.summary) rfl,
    Json.valueStringMap_ofPairs (v := stringMapJson event.details) rfl, hdetails]
  rfl

/-! ### Values that are read back from their text -/

theorem written_stringMapJson (m : OrderedMap Bytes Bytes) : (stringMapJson m).Written := by
  refine ⟨List.pairwise_map.mpr m.sorted, ?_⟩
  rw [Json.writtenMembers_iff, List.forall_mem_map]
  exact fun _ _ => trivial

theorem Evidence.written_toJson (evidence : Evidence) : evidence.toJson.Written :=
  Json.written_ofPairs (by simp [Json.Written])

theorem ToolRequest.written_toJson (request : ToolRequest) : request.toJson.Written :=
  Json.written_ofPairs (by simp [Json.Written, written_stringMapJson])

theorem ToolResponse.written_toJson (response : ToolResponse) : response.toJson.Written := by
  have hevidence : Json.WrittenItems (response.evidence.map Evidence.toJson) := by
    rw [Json.writtenItems_iff, List.forall_mem_map]
    exact fun e _ => e.written_toJson
  exact Json.written_ofPairs (by simp [Json.Written, hevidence])

theorem AuditEvent.written_toJson (event : AuditEvent) : event.toJson.Written :=
  Json.written_ofPairs (by simp [Json.Written, written_stringMapJson])

/-- A valid request can be encoded. -/
theorem ToolRequest.Valid.encodable {request : ToolRequest} (h : request.Valid) :
    request.toJson.Encodable := by
  rw [ToolRequest.toJson, Json.encodable_ofPairs (by simp only [List.map]; decide)]
  simp only [List.forall_mem_cons, Json.encodable_string, encodable_stringMapJson,
    List.not_mem_nil, false_imp_iff, implies_true, and_true]
  exact ⟨⟨by decide, h.id⟩, ⟨by decide, h.toolName⟩,
    ⟨by decide, Utf8.valid_of_isAscii (isAscii_riskClass _)⟩, by decide, h.params⟩

end Kasli.Core
