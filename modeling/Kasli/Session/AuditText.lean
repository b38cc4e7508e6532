import Kasli.Audit.AuditLog
import Kasli.Core.RedactUtf8
import Kasli.Json.Text
import Kasli.Policy.PolicyBroker

/-! What the session service puts into an audit record (`session/session_service.cpp`).
Every string is redacted and then cut at a fixed byte offset; parameters and evidence
references become one JSON text, which is redacted and cut again. A bounded string is
well-formed UTF-8 exactly when no character is open at the offset of its cut. -/

namespace Kasli.Session

open Core Policy Audit Utf8

def maxAuditStringBytes : ℕ := 2048
def maxAuditJsonBytes : ℕ := 4096
def maxAuditParamValueBytes : ℕ := 512
def maxAuditEvidenceRefs : ℕ := 64

def marker : Bytes := ascii "...[truncated]"

def boundString (value : Bytes) (maxBytes : ℕ) : Bytes :=
  let redacted := redactLikelySecret value
  if redacted.length ≤ maxBytes then redacted
  else if maxBytes ≤ marker.length then marker.take maxBytes
  else redacted.take (maxBytes - marker.length) ++ marker

def boundAuditString (value : Bytes) : Bytes := boundString value maxAuditStringBytes

/-- The keys of a map come in order and are distinct, so each assignment adds a last member. -/
def boundedParamsJson (params : OrderedMap Bytes Bytes) : Json :=
  .object (params.entries.map fun e => (e.1, .string (boundString e.2 maxAuditParamValueBytes)))

def evidenceRef (item : Evidence) : Json :=
  .ofPairs [(ascii "id", .string (boundAuditString item.id)),
    (ascii "source", .string (boundAuditString item.source)),
    (ascii "summary", .string (boundAuditString item.summary)),
    (ascii "timestamp", .string (boundAuditString item.timestamp))]

/-- The references to the items of a list before which `count` references were made. -/
def evidenceRefs (count : ℕ) : List Evidence → List Json
  | [] => []
  | item :: evidence =>
    if count ≥ maxAuditEvidenceRefs then [.ofPairs [(ascii "truncated", .bool true)]]
    else evidenceRef item :: evidenceRefs (count + 1) evidence

def evidenceRefsJson (evidence : List Evidence) : Json := .array (evidenceRefs 0 evidence)

def boundJson (value : Json) : Except Bytes Bytes := do
  return boundString (← value.dump) maxAuditJsonBytes

def toolAuditDetails (request : ToolRequest) (decision : PolicyDecision) (response : ToolResponse) :
    Except Bytes (OrderedMap Bytes Bytes) := do
  let requestParams ← boundJson (boundedParamsJson request.params)
  let evidenceRefs ← boundJson (evidenceRefsJson response.evidence)
  return .ofList
    [(ascii "request_id", boundAuditString request.id),
      (ascii "tool_name", boundAuditString request.toolName),
      (ascii "request_risk", request.risk.toString),
      (ascii "request_params", requestParams),
      (ascii "policy_allowed", ascii (if decision.allowed then "true" else "false")),
      (ascii "policy_decision", boundAuditString decision.reason),
      (ascii "response_status", response.status.toString),
      (ascii "response_message", boundAuditString response.message),
      (ascii "response_evidence_count", decimal response.evidence.length),
      (ascii "response_evidence_refs", evidenceRefs),
      (ascii "status", response.status.toString)]

def modelContextDetails (prompt : Bytes) (request : ToolRequest) (evidence : List Evidence) :
    Except Bytes (OrderedMap Bytes Bytes) := do
  let evidenceRefs ← boundJson (evidenceRefsJson evidence)
  return .ofList
    [(ascii "request_id", boundAuditString request.id),
      (ascii "prompt", boundAuditString prompt),
      (ascii "evidence_count", decimal evidence.length),
      (ascii "evidence_refs", evidenceRefs)]

/-! ### Bounded strings -/

theorem boundString_of_le {value : Bytes} {maxBytes : ℕ}
    (h : (redactLikelySecret value).length ≤ maxBytes) :
    boundString value maxBytes = redactLikelySecret value := if_pos h

theorem boundString_of_lt {value : Bytes} {maxBytes : ℕ} (hmax : marker.length < maxBytes)
    (h : maxBytes < (redactLikelySecret value).length) :
    boundString value maxBytes =
      (redactLikelySecret value).take (maxBytes - marker.length) ++ marker := by
  rw [boundString, if_neg (by omega), if_neg (by omega)]

/-- The bound does not cut `value` inside a character. -/
def CutsClean (value : Bytes) (maxBytes : ℕ) : Prop :=
  maxBytes < (redactLikelySecret value).length →
    CleanAt (redactLikelySecret value) (maxBytes - marker.length)

instance (value : Bytes) (maxBytes : ℕ) : Decidable (CutsClean value maxBytes) :=
  inferInstanceAs (Decidable (_ → _))

/-- A bounded string is well formed exactly when it is not cut inside a character. -/
theorem valid_boundString {value : Bytes} {maxBytes : ℕ} (hmax : marker.length < maxBytes)
    (h : Valid value) : Valid (boundString value maxBytes) ↔ CutsClean value maxBytes := by
  have hr := valid_redactLikelySecret h
  by_cases hle : (redactLikelySecret value).length ≤ maxBytes
  · rw [boundString_of_le hle, CutsClean]
    exact ⟨fun _ hlt => absurd hlt (by omega), fun _ => hr⟩
  · have hlt : maxBytes < (redactLikelySecret value).length := by omega
    have hm : IsAscii marker := by decide
    rw [boundString_of_lt hmax hlt, CutsClean, ← valid_take_iff_cleanAt hr]
    constructor
    · exact fun hv _ => (accepts_split hv fun b hb => hm b (List.mem_of_mem_head? hb)).1
    · exact fun hv => valid_append (hv hlt) (valid_of_isAscii hm)

/-- A text without `=` and `:` that is not too long is kept. -/
theorem boundString_eq_self {value : Bytes} {maxBytes : ℕ} (he : chr '=' ∉ value)
    (hc : chr ':' ∉ value) (h : value.length ≤ maxBytes) : boundString value maxBytes = value := by
  rw [boundString, redactLikelySecret_eq_self he hc, if_pos h]

theorem valid_boundAuditString {value : Bytes} (h : Valid value) :
    Valid (boundAuditString value) ↔ CutsClean value maxAuditStringBytes :=
  valid_boundString (by decide) h

theorem cutsClean_of_isAscii {value : Bytes} (h : IsAscii value) (maxBytes : ℕ) :
    CutsClean value maxBytes := fun _ => cleanAt_of_isAscii (isAscii_redactLikelySecret h) _

theorem valid_boundAuditString_of_isAscii {value : Bytes} (h : IsAscii value) :
    Valid (boundAuditString value) :=
  (valid_boundAuditString (valid_of_isAscii h)).mpr (cutsClean_of_isAscii h _)

/-! ### Bounded JSON -/

theorem evidenceRefs_eq (count : ℕ) (evidence : List Evidence) :
    evidenceRefs count evidence = (evidence.take (maxAuditEvidenceRefs - count)).map evidenceRef ++
      if maxAuditEvidenceRefs - count < evidence.length then
        [.ofPairs [(ascii "truncated", .bool true)]] else [] := by
  induction evidence generalizing count with
  | nil => simp [evidenceRefs]
  | cons item evidence ih =>
    rw [evidenceRefs]
    by_cases hc : count ≥ maxAuditEvidenceRefs
    · rw [if_pos hc, Nat.sub_eq_zero_of_le hc, if_pos (by simp)]
      rfl
    · obtain ⟨n, hn⟩ : ∃ n, maxAuditEvidenceRefs - count = n + 1 :=
        ⟨_, (Nat.succ_pred (by omega)).symm⟩
      have hn' : maxAuditEvidenceRefs - (count + 1) = n := by omega
      rw [if_neg hc, ih, hn', hn, List.take_succ_cons, List.map_cons, List.cons_append]
      simp only [List.length_cons, Nat.add_lt_add_iff_right]

/-- None of the four strings of a reference is cut inside a character. -/
structure RefClean (item : Evidence) : Prop where
  id : CutsClean item.id maxAuditStringBytes
  source : CutsClean item.source maxAuditStringBytes
  summary : CutsClean item.summary maxAuditStringBytes
  timestamp : CutsClean item.timestamp maxAuditStringBytes

theorem encodable_evidenceRef {item : Evidence} (h : item.Valid) :
    (evidenceRef item).Encodable ↔ RefClean item := by
  have hkeys : ∀ k ∈ ["id", "source", "summary", "timestamp"], Valid (ascii k) := by decide
  simp only [List.forall_mem_cons] at hkeys
  rw [evidenceRef, Json.encodable_ofPairs (by simp only [List.map]; decide)]
  simp only [List.forall_mem_cons, hkeys, Json.encodable_string, valid_boundAuditString h.id,
    valid_boundAuditString h.source, valid_boundAuditString h.summary,
      valid_boundAuditString h.timestamp,
    true_and, List.not_mem_nil, false_imp_iff, implies_true, and_true]
  constructor
  · rintro ⟨h₁, h₂, h₃, h₄⟩
    exact ⟨h₁, h₂, h₃, h₄⟩
  · exact fun h => ⟨h.id, h.source, h.summary, h.timestamp⟩

theorem encodable_evidenceRefsJson {evidence : List Evidence} (h : ∀ e ∈ evidence, e.Valid) :
    (evidenceRefsJson evidence).Encodable ↔ ∀ e ∈ evidence.take maxAuditEvidenceRefs,
      RefClean e := by
  have htrunc : Json.Encodable (.ofPairs [(ascii "truncated", .bool true)]) := by decide
  rw [evidenceRefsJson, evidenceRefs_eq, Json.encodable_array, Nat.sub_zero]
  have hrefs : (∀ j ∈ (evidence.take maxAuditEvidenceRefs).map evidenceRef, j.Encodable) ↔
      ∀ e ∈ evidence.take maxAuditEvidenceRefs, RefClean e := by
    rw [List.forall_mem_map]
    exact forall₂_congr fun e he => encodable_evidenceRef (h e (List.mem_of_mem_take he))
  rw [List.forall_mem_append, hrefs]
  refine and_iff_left ?_
  split_ifs
  · simpa using htrunc
  · simp

/-- The strings of the references are ASCII or bounded strings of the evidence. -/
theorem each_evidenceRefsJson {p : Bytes → Prop} (hascii : ∀ {s}, IsAscii s → p s)
    {evidence : List Evidence} (h : ∀ e ∈ evidence, p (boundAuditString e.id) ∧
      p (boundAuditString e.source) ∧ p (boundAuditString e.summary) ∧
        p (boundAuditString e.timestamp)) : (evidenceRefsJson evidence).Each p := by
  refine Json.each_array ?_
  rw [evidenceRefs_eq, List.forall_mem_append, List.forall_mem_map]
  constructor
  · intro e he
    obtain ⟨hid, hsource, hsummary, htimestamp⟩ := h e (List.mem_of_mem_take he)
    refine Json.each_ofPairs ?_
    simp only [List.forall_mem_cons]
    exact ⟨⟨hascii (by decide), Json.each_string hid⟩,
      ⟨hascii (by decide), Json.each_string hsource⟩,
      ⟨hascii (by decide), Json.each_string hsummary⟩,
      ⟨hascii (by decide), Json.each_string htimestamp⟩, by simp⟩
  · split_ifs
    · refine List.forall_mem_singleton.mpr (Json.each_ofPairs ?_)
      rw [List.forall_mem_singleton]
      exact ⟨hascii (by decide), Json.each_bool true⟩
    · simp

theorem isAscii_boundAuditString {value : Bytes} (h : IsAscii value) :
    IsAscii (boundAuditString value) := by
  have hredacted := isAscii_redactLikelySecret h
  have hmarker : IsAscii marker := by decide
  have htake {s : Bytes} (hs : IsAscii s) (n : ℕ) : IsAscii (s.take n) := fun b hb =>
    hs b (List.mem_of_mem_take hb)
  simp only [boundAuditString, boundString]
  split_ifs
  · exact hredacted
  · exact htake hmarker _
  · exact (isAscii_append _ _).mpr ⟨htake hredacted _, hmarker⟩

theorem encodable_boundedParamsJson {params : OrderedMap Bytes Bytes}
    (h : ∀ e ∈ params.entries, Valid e.1 ∧ Valid e.2) : (boundedParamsJson params).Encodable ↔
      ∀ e ∈ params.entries, CutsClean e.2 maxAuditParamValueBytes := by
  simp only [boundedParamsJson, Json.encodable_object, List.forall_mem_map, Json.encodable_string]
  refine forall₂_congr fun e he => ?_
  rw [valid_boundString (by decide) (h e he).2]
  exact and_iff_right (h e he).1

theorem boundJson_of_encodable {value : Json} (h : value.Encodable) :
    boundJson value = .ok (boundString value.render maxAuditJsonBytes) := by
  rw [boundJson, Json.dump_of_encodable h]
  rfl

theorem boundJson_of_not_encodable {value : Json} (h : ¬ value.Encodable) :
    ∃ what, boundJson value = .error what ∧ IsAscii what := by
  obtain ⟨what, hd, ha⟩ := Json.dump_error_of_not_encodable h
  refine ⟨what, ?_, ha⟩
  rw [boundJson, hd]
  rfl

/-- What is thrown while a JSON text is bounded is ASCII. -/
theorem isAscii_of_boundJson_error {value : Json} {what : Bytes}
    (h : boundJson value = .error what) : IsAscii what := by
  by_cases he : value.Encodable
  · rw [boundJson_of_encodable he] at h
    cases h
  · obtain ⟨what', hb, ha⟩ := boundJson_of_not_encodable he
    rw [hb] at h
    exact Except.error.inj h ▸ ha

theorem valid_boundString_render {value : Json} (h : value.Encodable) :
    Valid (boundString value.render maxAuditJsonBytes) ↔ CutsClean value.render maxAuditJsonBytes :=
  valid_boundString (by decide) (Json.valid_render h)

end Kasli.Session
