import Mathlib.Data.List.Infix
import Kasli.Tools.Body
import Kasli.Tools.ToolRegistry

/-! The aggregating tool (`tools/service_diagnose_tool.cpp`). It calls the status tool and
the journal tool itself, without the session in between, and assembles their evidence
and a diagnosis. The body it assembles never exceeds its limit. -/

namespace Kasli.Tools

open Core

def maxDiagnosisBodyBytes : ℕ := 12 * 1024

def requiredUnitParam (request : ToolRequest) : Bytes :=
  let unit := (request.params.find? (ascii "unit")).getD []
  if isBlank unit then [] else unit

/-! ### The body -/

/-- The text of a diagnosis within its limit, and whether it was cut. -/
structure DiagnosisBody where
  text : Bytes
  truncated : Bool
  bounded : text.length ≤ maxDiagnosisBodyBytes

def DiagnosisBody.empty : DiagnosisBody := ⟨[], false, by decide⟩

/-- What stands before the marker when `text` does not fit after `body`. -/
def makeRoom (body text : Bytes) : Bytes :=
  let remaining := maxDiagnosisBodyBytes - body.length
  if remaining > truncatedMarker.length then
    body ++ text.take (remaining - truncatedMarker.length)
  else if body.length + truncatedMarker.length > maxDiagnosisBodyBytes then
    body.take (maxDiagnosisBodyBytes - truncatedMarker.length)
  else body

theorem length_makeRoom {body : Bytes} (h : body.length ≤ maxDiagnosisBodyBytes) (text : Bytes) :
    (makeRoom body text).length + truncatedMarker.length ≤ maxDiagnosisBodyBytes := by
  have hm : truncatedMarker.length ≤ maxDiagnosisBodyBytes := by decide
  simp only [makeRoom]
  split_ifs
  · rw [List.length_append, List.length_take]
    omega
  · rw [List.length_take]
    omega
  · omega

def appendBounded (body : DiagnosisBody) (text : Bytes) : DiagnosisBody :=
  if h : body.text.length + text.length ≤ maxDiagnosisBodyBytes then
    { body with text := body.text ++ text, bounded := by rwa [List.length_append] }
  else
    { text := makeRoom body.text text ++ truncatedMarker, truncated := true,
      bounded := by rw [List.length_append]; exact length_makeRoom body.bounded text }

def appendLine (body : DiagnosisBody) (line : Bytes × Bytes) : DiagnosisBody :=
  appendBounded body (line.1 ++ ascii "=" ++ redactLikelySecret line.2 ++ ascii "\n")

/-! ### Reading the evidence -/

/-- `key=value`; a line without a key says nothing. -/
def parseKeyValueLine (line : Bytes) : Option (Bytes × Bytes) :=
  let key := line.takeWhile (· != chr '=')
  if key = [] ∨ chr '=' ∉ line then none else some (key, line.drop (key.length + 1))

/-- The first value of each key. The empty line after a final newline says nothing either. -/
def parseKeyValueLines (body : Bytes) : OrderedMap Bytes Bytes :=
  .ofList ((body.splitOn (chr '\n')).filterMap parseKeyValueLine)

theorem parseKeyValueLine_eq_some {line key value : Bytes} :
    parseKeyValueLine line = some (key, value) ↔
    key ≠ [] ∧ chr '=' ∉ key ∧ line = key ++ chr '=' :: value := by
  have hkey : chr '=' ∉ line.takeWhile (· != chr '=') :=
    fun h => by simpa using List.mem_takeWhile_imp h
  unfold parseKeyValueLine
  constructor
  · intro h
    dsimp only at h
    split_ifs at h with hnone
    rw [not_or, not_not] at hnone
    obtain ⟨rfl, rfl⟩ := Prod.mk.inj (Option.some.inj h)
    refine ⟨hnone.1, hkey, ?_⟩
    -- the separator is right after the key
    have hrest : line.dropWhile (· != chr '=') ≠ [] := fun hnil => hkey <| by
      have hall := List.takeWhile_append_dropWhile (p := (· != chr '=')) (l := line)
      rw [hnil, List.append_nil] at hall
      exact hall.symm ▸ hnone.2
    obtain ⟨b, rest, hb⟩ := List.exists_cons_of_ne_nil hrest
    have hhead := List.head?_dropWhile_not (· != chr '=') line
    rw [hb] at hhead
    obtain rfl : b = chr '=' := by simpa using hhead
    have hline : line.takeWhile (· != chr '=') ++ chr '=' :: rest = line := by
      rw [← hb, List.takeWhile_append_dropWhile]
    clear h hhead hb hrest
    generalize line.takeWhile (· != chr '=') = k at hline
    subst hline
    simp
  · rintro ⟨hne, hnot, rfl⟩
    have htake : (key ++ chr '=' :: value).takeWhile (· != chr '=') = key := by
      rw [List.takeWhile_append_of_pos fun b hb => by simpa using ne_of_mem_of_not_mem hb hnot]
      simp
    simp only [htake]
    rw [if_neg (by simp [hne])]
    simp

def hasNonEmptyEvidenceBody (response : ToolResponse) : Bool :=
  response.evidence.any fun item => !isBlank item.body

def containsFailureTerms (text : Bytes) : Bool :=
  ["failed", "failure", "error", "denied", "refused", "address already in use"].any fun term =>
    ascii term <:+: text.map toLower

def firstEvidenceBody (response : ToolResponse) : Bytes :=
  match response.evidence with
  | [] => []
  | item :: _ => item.body

/-! ### The diagnosis -/

def diagnosis (statusValues : OrderedMap Bytes Bytes) (statusOk journalOk : Bool) : Bytes :=
  let activeState := statusValues.find? (ascii "active_state")
  let serviceResult := statusValues.find? (ascii "service_result")
  if activeState = some (ascii "failed") then ascii "service is failed"
  else if serviceResult.any fun result => result ≠ [] ∧ result ≠ ascii "success" then
    ascii "service reports a non-success result"
  else if activeState = some (ascii "active") then ascii "service is active"
  else if !statusOk && journalOk then ascii "status unavailable; journal evidence collected"
  else if statusOk && !journalOk then ascii "status collected; journal unavailable"
  else ascii "partial evidence collected"

def statusKeys : List Bytes :=
  [ascii "load_state", ascii "active_state", ascii "sub_state", ascii "unit_file_state",
    ascii "fragment_path", ascii "service_result", ascii "exec_main_code", ascii "exec_main_status"]

def boolText (value : Bool) : Bytes := if value then ascii "true" else ascii "false"

/-- The lines of the body, in order. -/
def diagnosisLines (unit : Bytes) (status journal : ToolResponse) : List (Bytes × Bytes) :=
  let statusValues := parseKeyValueLines (firstEvidenceBody status)
  [(ascii "unit", unit),
    (ascii "status_tool_status", status.status.toString),
    (ascii "status_tool_message", status.message),
    (ascii "journal_tool_status", journal.status.toString),
    (ascii "journal_tool_message", journal.message)] ++
  statusKeys.filterMap (fun key =>
    ((statusValues.find? key).filter fun value => value ≠ []).map fun value => (key, value)) ++
  [(ascii "journal_entries_present", boolText (hasNonEmptyEvidenceBody journal)),
    (ascii "journal_failure_terms_present",
      boolText (containsFailureTerms (firstEvidenceBody journal))),
    (ascii "diagnosis", diagnosis statusValues (status.status = .ok) (journal.status = .ok))]

/-- The response that is made of the responses of the two tools. -/
def diagnose (request : ToolRequest) (unit timestamp : Bytes) (status journal : ToolResponse) :
    ToolResponse :=
  let anyOk := status.status = .ok ∨ journal.status = .ok
  let body := (diagnosisLines unit status journal).foldl appendLine .empty
  { requestId := request.id
    status := if anyOk then .ok else .error
    message := if anyOk then ascii "service diagnosis collected" else ascii
      "service diagnosis failed"
    evidence :=
      { id := request.id ++ ascii ":service.diagnose", source := ascii "service.diagnose",
        summary := ascii "aggregated service diagnosis for " ++ unit, body := body.text,
        timestamp } ::
      (status.evidence ++ journal.evidence) }

/-! ### The tool -/

def childRequest (request : ToolRequest) (suffix toolName unit : Bytes) : ToolRequest :=
  { id := request.id ++ ascii ":" ++ suffix, toolName, risk := .readOnly,
    params := .ofList [(ascii "unit", unit)] }

def missingUnitResponse (request : ToolRequest) : ToolResponse :=
  { requestId := request.id, status := .error,
    message := ascii "service.diagnose requires a non-empty unit parameter", evidence := [] }

/-- `ServiceDiagnoseTool::call` -/
def diagnoseCall (host : Host) (statusTool journalTool : Tool) (request : ToolRequest) :
    Act ToolResponse :=
  let unit := requiredUnitParam request
  if unit = [] then pure (missingUnitResponse request)
  else do
    let status ←
      statusTool.call (childRequest request (ascii "status") (ascii "systemd.unit.status") unit)
    let journal ← journalTool.call
      (childRequest request (ascii "journal") (ascii "journal.query") unit)
    let timestamp ← utcTimestamp host
    return diagnose request unit timestamp status journal

theorem diagnoseCall_quiet (host : Host) (statusTool journalTool : Tool) (request : ToolRequest) :
    Run.Only IsExecution (diagnoseCall host statusTool journalTool request) := by
  unfold diagnoseCall
  dsimp only
  split_ifs
  · exact Run.only_pure _ _
  · exact (only_executes statusTool _).bind fun _ => (only_executes journalTool _).bind fun _ =>
      (Run.only_ask _ _).bind fun _ => Run.only_pure _ _

def serviceDiagnoseTool (host : Host) (statusTool journalTool : Tool) : Tool where
  name := ascii "service.diagnose"
  risk := .readOnly
  body := diagnoseCall host statusTool journalTool
  quiet := diagnoseCall_quiet host statusTool journalTool

/-- The tool does not answer that it is denied. -/
theorem diagnoseCall_status {host : Host} {statusTool journalTool : Tool} {request : ToolRequest}
    {σ s : History} {response : ToolResponse}
    (h : (diagnoseCall host statusTool journalTool request).run σ = (s, .ok response)) :
    response.status ≠ .denied := by
  unfold diagnoseCall at h
  dsimp only at h
  split_ifs at h
  · obtain rfl := Except.ok.inj (Prod.mk.inj h).2
    exact ToolStatus.noConfusion
  · rcases Run.bind_cases h with ⟨_, -, he⟩ | ⟨_, status, s', -, h, -⟩
    · cases he
    rcases Run.bind_cases h with ⟨_, -, he⟩ | ⟨_, journal, s', -, h, -⟩
    · cases he
    rcases Run.bind_cases h with ⟨_, -, he⟩ | ⟨_, timestamp, s', -, h, -⟩
    · cases he
    obtain rfl := Except.ok.inj (Prod.mk.inj h).2
    unfold diagnose
    dsimp only
    split_ifs
    · decide
    · decide

/-- Without a unit no other tool is called. -/
theorem diagnoseCall_of_missing {host : Host} {statusTool journalTool : Tool}
    {request : ToolRequest} (h : requiredUnitParam request = []) :
    diagnoseCall host statusTool journalTool request = pure (missingUnitResponse request) := by
  rw [diagnoseCall, if_pos h]

end Kasli.Tools
