import Kasli.Session.Integrity
import Kasli.Session.Mediation
import Kasli.Tools.ServiceDiagnose

/-! A diagnosis through the session. It is made of what two other tools return. What one of them
throws ends the diagnosis, and the session makes an error of it: then the evidence of the
other one, which may have been collected already, is lost. -/

namespace Kasli.Session

open Core Policy Audit Tools Utf8

/-! ### What becomes of a call -/

/-- The call returned a response that is ok. -/
def Succeeded (outcome : Except Exn ToolResponse) : Prop := ∃ response, outcome = .ok response ∧
    response.status = .ok

/-- The call threw an exception. -/
def Threw (outcome : Except Exn ToolResponse) : Prop := ∃ error, outcome = .error error

/-- The evidence that the call returned. -/
def evidenceOf : Except Exn ToolResponse → List Evidence
  | .ok response => response.evidence
  | .error _ => []

theorem not_succeeded_error (error : Exn) : ¬ Succeeded (.error error) :=
  fun ⟨_, h, _⟩ => by cases h

theorem not_threw_ok (response : ToolResponse) : ¬ Threw (.ok response) := fun ⟨_, h⟩ => by cases h

theorem succeeded_ok (response : ToolResponse) : Succeeded (.ok response) ↔ response.status = .ok :=
  ⟨fun ⟨_, h, hstatus⟩ => Except.ok.inj h ▸ hstatus, fun h => ⟨response, rfl, h⟩⟩

section

variable (host : Host) (statusTool journalTool : Tool) (request : ToolRequest) (σ : History)

/-- The history when the diagnosis calls the status tool. -/
def begun : History := σ ++ [.executed (ascii "service.diagnose") request]

def statusRun : History × Except Exn ToolResponse :=
  (statusTool.call (childRequest request (ascii "status") (ascii "systemd.unit.status")
    (requiredUnitParam request))).run (begun request σ)

/-- What the journal tool does next, whether it is called or not. -/
def journalRun : History × Except Exn ToolResponse :=
  (journalTool.call (childRequest request (ascii "journal") (ascii "journal.query")
    (requiredUnitParam request))).run (begun request σ ++ (statusRun statusTool request σ).1)

/-- The diagnosis is ok if one of the two calls was, and has the evidence of both after its own
record. -/
def Diagnosed (response : ToolResponse) (status journal : Except Exn ToolResponse) : Prop :=
  (response.status = .ok ↔ Succeeded status ∨ Succeeded journal) ∧
    (response.status = .ok → ∃ record : Evidence, record.id = request.id ++
      ascii ":service.diagnose" ∧
      record.source = ascii "service.diagnose" ∧ response.evidence = record ::
        (evidenceOf status ++ evidenceOf journal))

/-- One of the two calls was ok and the other one threw. -/
def Lost (status journal : Except Exn ToolResponse) : Prop :=
  (Threw status ∧ Succeeded journal) ∨ (Succeeded status ∧ Threw journal)

/-- How the diagnosis of a unit ends. -/
theorem diagnose_outcome (hunit : requiredUnitParam request ≠ []) :
    (((serviceDiagnoseTool host statusTool journalTool).call request).run σ).2 =
      match (statusRun statusTool request σ).2, (journalRun statusTool journalTool request σ).2 with
      | .error error, _ => .error error
      | .ok _, .error error => .error error
      | .ok status, .ok journal =>
        .ok (diagnose request (requiredUnitParam request)
          (formatUtc (host.utc (begun request σ ++ (statusRun statusTool request σ).1 ++
            (journalRun statusTool journalTool request σ).1))) status journal) := by
  have hbody : (serviceDiagnoseTool host statusTool journalTool).body request =
      diagnoseCall host statusTool journalTool request := rfl
  have hname : (serviceDiagnoseTool host statusTool journalTool).name = ascii "service.diagnose" :=
    rfl
  rw [Tool.call, Run.run_emit_bind, hbody, hname, diagnoseCall, if_neg hunit]
  change ((_ : Act ToolResponse).run (begun request σ)).2 = _
  rcases hs : statusRun statusTool request σ with ⟨s₁, error | status⟩
  · rw [Run.run_bind_of_error hs]
  rcases hj : journalRun statusTool journalTool request σ with ⟨s₂, error | journal⟩
  · rw [Run.run_bind_of_ok hs]
    rw [journalRun, hs] at hj
    rw [Run.run_bind_of_error hj]
  · rw [Run.run_bind_of_ok hs]
    rw [journalRun, hs] at hj
    rw [Run.run_bind_of_ok hj]
    rfl

/-- The response to a diagnosis that has not thrown. -/
theorem diagnosed_diagnose (unit timestamp : Bytes) (status journal : ToolResponse) :
    Diagnosed request (diagnose request unit timestamp status journal) (.ok status)
      (.ok journal) := by
  refine ⟨?_, fun _ => ⟨_, rfl, rfl, rfl⟩⟩
  rw [succeeded_ok, succeeded_ok, diagnose]
  by_cases hok : status.status = .ok ∨ journal.status = .ok
  · exact iff_of_true (if_pos hok) hok
  · exact iff_of_false (by simp only [if_neg hok, reduceCtorEq, not_false_eq_true]) hok

theorem failedResponse_status (error : Exn) : (failedResponse request error).status ≠ .ok := by
  cases error <;> exact ToolStatus.noConfusion

/-- The response to a diagnosis that has thrown. -/
theorem diagnosed_failed (error : Exn) (status journal : Except Exn ToolResponse) :
    Diagnosed request (failedResponse request error) status journal ↔
      ¬ (Succeeded status ∨ Succeeded journal) := by
  have hfailed := failedResponse_status request error
  constructor
  · exact fun h hsucceeded => hfailed (h.1.mpr hsucceeded)
  · exact fun h => ⟨iff_of_false hfailed h, fun hok => absurd hok hfailed⟩

/-- A call of the diagnosis returns its response or cannot record it, and the response is that
of both calls exactly when none of them threw while the other one was ok. -/
theorem diagnosed_iff {service : SessionService} {actor : Bytes}
    (hreached : service.reached request = some (serviceDiagnoseTool host statusTool journalTool))
    (hunit : isBlank ((request.params.find? (ascii "unit")).getD []) = false) :
    ∃ response, (((service.callTool host request actor).run σ).2 = .ok response ∨
        ∃ what, ((service.callTool host request actor).run σ).2 = .error (.std what)) ∧
      (Diagnosed request response (statusRun statusTool request σ).2
        (journalRun statusTool journalTool request σ).2 ↔ ¬ Lost (statusRun statusTool request σ).2
          (journalRun statusTool journalTool request σ).2) := by
  have hne : requiredUnitParam request ≠ [] := by
    rw [requiredUnitParam, hunit, if_neg (by decide)]
    intro hnil
    rw [hnil] at hunit
    exact absurd hunit (by decide)
  refine ⟨settle request (((serviceDiagnoseTool host statusTool journalTool).call request).run σ).2,
    ?_, ?_⟩
  · rcases callTool_cases service host request actor (respond_of_reached hreached σ)
      with ⟨event, -, h⟩ | ⟨what, h⟩
    · exact .inl (by rw [h])
    · exact .inr ⟨what, by rw [h]⟩
  rw [diagnose_outcome host statusTool journalTool request σ hne]
  rcases (statusRun statusTool request σ).2 with error | status
  · -- the journal is not called
    rw [settle, diagnosed_failed, Lost]
    have hthrew : Threw (.error error) := ⟨error, rfl⟩
    simp only [not_succeeded_error, hthrew, true_and, false_and, false_or, or_false]
  rcases (journalRun statusTool journalTool request σ).2 with error | journal
  · -- the evidence of the status is not returned
    rw [settle, diagnosed_failed, Lost]
    have hthrew : Threw (.error error) := ⟨error, rfl⟩
    simp only [not_succeeded_error, hthrew, and_true, and_false, false_or, or_false]
  · exact iff_of_true (diagnosed_diagnose request _ _ status journal) fun h =>
      h.elim (fun h => not_threw_ok status h.1) fun h => not_threw_ok journal h.2

end

/-! ### An exception of the journal -/

/-- A tool that throws. -/
def throwingTool (name what : Bytes) : Tool :=
  { name, risk := .readOnly, body := fun _ => throw (.std what),
    quiet := fun _ => Run.only_throw _ _ }

theorem reached_singleService {tool : Tool} {request : ToolRequest}
    (hname : request.toolName = tool.name)
    (hrisk : tool.risk = .readOnly) : (singleService tool).reached request = some tool := by
  have hallowed : ((singleService tool).policy.decide request).allowed = true := by
    rw [decide_allowed_iff]
    simp only [singleService, PolicyBroker.ofPolicies, OrderedMap.find?_ofList, List.map_cons,
      OrderedMap.lookup_cons, hname, hrisk, if_true]
  rw [SessionService.reached, if_pos hallowed]
  exact ToolRegistry.find_eq_some_iff.mpr ⟨List.mem_singleton_self _, hname.symm⟩

def sshDiagnosis : ToolRequest :=
  { id := ascii "r1", toolName := ascii "service.diagnose", risk := .readOnly,
    params := .ofList [(ascii "unit", ascii "ssh.service")] }

def activeResponse : ToolResponse :=
  { requestId := ascii "r1:status", status := .ok, message := ascii "systemd unit status retrieved",
    evidence := [] }

def activeTool : Tool := constantTool (ascii "systemd.unit.status") activeResponse

def brokenJournal : Tool := throwingTool (ascii "journal.query") (ascii "std::bad_alloc")

theorem diagnosed_iff_ssh : ∃ response,
    ((((singleService (serviceDiagnoseTool stillHost activeTool activeTool)).callTool
      stillHost sshDiagnosis
        (ascii "cli")).run []).2 = .ok response ∨
      ∃ what, (((singleService (serviceDiagnoseTool stillHost activeTool activeTool)).callTool
        stillHost sshDiagnosis (ascii "cli")).run []).2 = .error (.std what)) ∧
    (Diagnosed sshDiagnosis response (statusRun activeTool sshDiagnosis []).2
        (journalRun activeTool activeTool sshDiagnosis []).2 ↔
      ¬ Lost (statusRun activeTool sshDiagnosis []).2
        (journalRun activeTool activeTool sshDiagnosis []).2) :=
  diagnosed_iff stillHost activeTool activeTool sshDiagnosis []
    (reached_singleService rfl rfl) (by decide)

/-- The status is collected, and the response to the diagnosis is an error without evidence. -/
theorem status_lost : ¬ ∀ (service : SessionService) (host : Host) (statusTool journalTool : Tool)
    (request : ToolRequest) (actor : Bytes) (σ : History) (response : ToolResponse),
    service.reached request = some (serviceDiagnoseTool host statusTool journalTool) →
    isBlank ((request.params.find? (ascii "unit")).getD []) = false →
    ((service.callTool host request actor).run σ).2 = .ok response →
    Diagnosed request response (statusRun statusTool request σ).2
      (journalRun statusTool journalTool request σ).2 := by
  intro h
  have hreached : (singleService (serviceDiagnoseTool stillHost activeTool brokenJournal)).reached
    sshDiagnosis =
      some (serviceDiagnoseTool stillHost activeTool brokenJournal) := reached_singleService rfl rfl
  have houtcome : (((serviceDiagnoseTool stillHost activeTool brokenJournal).call sshDiagnosis).run
    []).2 =
      .error (.std (ascii "std::bad_alloc")) := by
    rw [diagnose_outcome _ _ _ _ _ (by decide)]
    rfl
  have hresponds := respond_of_reached hreached []
  rw [houtcome, settle] at hresponds
  have hclean : CallClean sshDiagnosis
      (failedResponse sshDiagnosis (.std (ascii "std::bad_alloc"))) :=
    ⟨cutsClean_of_isAscii (by decide) _, cutsClean_of_isAscii (by decide) _,
      fun e he => cutsClean_of_isAscii (by revert e; decide) _,
        cutsClean_of_isAscii (by decide +kernel) _,
      cutsClean_of_isAscii (by decide) _,
        ⟨by simp [failedResponse], cutsClean_of_isAscii (by decide +kernel) _⟩⟩
  have hactor : Valid (ascii "cli") := by decide
  have hwritable : stillHost.Writable := fun _ _ => rfl
  rcases callTool_evaluated hwritable hactor ⟨by decide, by decide, by decide⟩
    ⟨by decide, by decide, by simp [failedResponse]⟩ hresponds with ⟨-, call, -, hcall⟩ | ⟨hnot, -⟩
  · have hdiagnosed := h _ stillHost activeTool brokenJournal sshDiagnosis (ascii "cli")
      [] _ hreached (by decide) (congrArg Prod.snd hcall)
    exact failedResponse_status _ _ (hdiagnosed.1.mpr (.inl ⟨activeResponse, rfl, rfl⟩))
  · exact hnot hclean

end Kasli.Session
