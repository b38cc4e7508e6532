import Kasli.Kaslid.Answered
import Kasli.Kaslid.Disclosure
import Kasli.Kaslid.Registry
import Kasli.Session.Accounting

/-! Every execution against its record, over the runs of the daemon. Each tool that runs
is allowed under its name. The executions of a tool and the records that it ran are
equal in number as long as the records can be written and the aggregating tool is not
given a unit: what that tool calls itself is in no record. The condition is exact. -/

namespace Kasli.Kaslid

open Core Policy Audit Session Tools

/-! ### What a line adds -/

/-- The request of a line that is a call or an ask. -/
def toolRequest? (parser : Parser) (input : Bytes) : Option ToolRequest :=
  match parser.parse input with
  | .error _ => none
  | .ok json =>
    match decode json with
    | .ok (.call request) => some request
    | .ok (.ask _ request) => some request
    | _ => none

theorem isAside_of_isProtocolError {a : Action} (h : IsProtocolError a) : IsAside a := by
  rcases h with rfl | ⟨event, rfl, ht⟩
  · trivial
  · exact fun hcall => absurd (ht.symm.trans hcall) (by decide)

theorem only_protocolError_asides (host : Host) (audit : AuditLog) (id : Bytes) (error : Exn) :
    Run.Only IsAside (protocolError audit host id error) := fun σ a ha =>
  isAside_of_isProtocolError (only_protocolError host audit id error σ a ha)

section

variable (parser : Parser) (service : SessionService) (host : Host) (model : ModelProvider)

/-- A call or an ask adds what calling its tool adds, and asides. -/
theorem perform_adds (id : Bytes) (command : Command) (σ : History) :
    (∃ request, (command = .call request ∨ ∃ prompt, command = .ask prompt request) ∧
      ∃ rest, ((perform service host model id command).run σ).1 =
        ((service.callTool host request (ascii "cli")).run σ).1 ++ rest ∧ ∀ a ∈ rest, IsAside a) ∨
    (∀ request, command ≠ .call request ∧ ∀ prompt, command ≠ .ask prompt request) ∧
      ∀ a ∈ ((perform service host model id command).run σ).1, IsAside a := by
  cases command with
  | list => exact .inr ⟨by simp, only_dump _ σ⟩
  | call request => exact .inl ⟨request, .inl rfl, Run.bind_adds (fun _ => only_dump _) σ⟩
  | ask prompt request =>
    left
    obtain ⟨r₁, h₁, ha₁⟩ := askWithTool_adds service host prompt request model (ascii "cli") σ
    obtain ⟨r₂, h₂, ha₂⟩ : ∃ rest, ((perform service host model id (.ask prompt request)).run σ).1 =
        ((service.askWithTool host prompt request model (ascii "cli")).run σ).1 ++ rest ∧
          ∀ a ∈ rest, IsAside a := Run.bind_adds (fun _ => only_dump _) σ
    refine ⟨request, .inr ⟨prompt, rfl⟩,
      r₁ ++ r₂, by rw [h₂, h₁, List.append_assoc], fun a ha => ?_⟩
    exact (List.mem_append.mp ha).elim (ha₁ a) (ha₂ a)
  | other =>
    refine .inr ⟨by simp, fun a ha => isAside_of_isProtocolError ?_⟩
    exact (only_auditProtocolError host service.audit id _).bind (fun _ => only_dump _) σ a ha

theorem handleRequest_adds (input : Bytes) (σ : History) :
    (∃ request, toolRequest? parser input = some request ∧
      ∃ rest, ((handleRequest parser service host model input).run σ).1 =
        ((service.callTool host request (ascii "cli")).run σ).1 ++ rest ∧ ∀ a ∈ rest, IsAside a) ∨
    toolRequest? parser input = none ∧
      ∀ a ∈ ((handleRequest parser service host model input).run σ).1, IsAside a := by
  unfold handleRequest toolRequest?
  rcases parser.parse input with what | json
  · exact .inr ⟨rfl, only_protocolError_asides host service.audit unknownId (.std what) σ⟩
  dsimp only
  rw [dispatch_eq]
  rcases decode json with what | command
  · refine .inr ⟨rfl, fun a ha => ?_⟩
    exact (Run.only_throw IsAside _).tryCatch
      (only_protocolError_asides host service.audit _) σ a ha
  rw [ofExcept_ok, Run.pure_bind]
  obtain ⟨r₂, h₂, ha₂⟩ := Run.tryCatch_adds
    (only_protocolError_asides host service.audit (requestIdOrUnknown json)) σ
  rw [h₂]
  rcases perform_adds service host model (requestIdOrUnknown json) command σ
    with ⟨request, hcommand, r₁, h₁, ha₁⟩ | ⟨hcommand, ha₁⟩
  · refine .inl ⟨request, ?_, r₁ ++ r₂, by rw [h₁, List.append_assoc], fun a ha => ?_⟩
    · rcases hcommand with rfl | ⟨prompt, rfl⟩
      · rfl
      · rfl
    · exact (List.mem_append.mp ha).elim (ha₁ a) (ha₂ a)
  · refine .inr ⟨?_, fun a ha => (List.mem_append.mp ha).elim (ha₁ a) (ha₂ a)⟩
    cases command with
    | call request => exact absurd rfl (hcommand request).1
    | ask prompt request => exact absurd rfl ((hcommand request).2 prompt)
    | _ => rfl

end

/-! ### What a call of a tool of the daemon adds -/

section

variable {tools : KaslidTools} {host : Host}

theorem executedTools_leaf (leaf : LeafCall) (name : Bytes) (request : ToolRequest) (σ : History) :
    executedTools (((leaf.tool name).call request).run σ).1 = [name] := by
  rw [Tool.call, Run.run_emit_bind, executedTools, executions_executed]
  simp [LeafCall.tool, leaf.silent]

/-- After itself the aggregating tool runs nothing, the status tool, or both its tools; with a
unit it runs the status tool at least. -/
theorem executedTools_diagnose (tools : KaslidTools) (host : Host)
    (request : ToolRequest) (σ : History) : ∃ nested,
    executedTools (((tools.diagnoseTool host).call request).run σ).1 =
      ascii "service.diagnose" :: nested ∧
      nested <+: [ascii "systemd.unit.status", ascii "journal.query"] ∧
      (requiredUnitParam request ≠ [] → ascii "systemd.unit.status" ∈ nested) := by
  have hbody : (tools.diagnoseTool host).body =
      diagnoseCall host tools.statusTool tools.journalTool := rfl
  rw [Tool.call, Run.run_emit_bind, executedTools, executions_executed, hbody]
  refine ⟨_, List.map_cons, ?_⟩
  rcases hr : (diagnoseCall host tools.statusTool tools.journalTool request).run
    (σ ++ [Action.executed (tools.diagnoseTool host).name request]) with ⟨s, result⟩
  change executedTools s <+: _ ∧ (_ → _ ∈ executedTools s)
  by_cases h : requiredUnitParam request = []
  · rw [diagnoseCall_of_missing h, Run.run_pure] at hr
    obtain rfl := (Prod.mk.inj hr).1
    exact ⟨List.nil_prefix, fun hne => absurd h hne⟩
  rw [diagnoseCall, if_neg h] at hr
  have hstatus := executedTools_leaf tools.systemdUnitStatus (ascii "systemd.unit.status")
    (childRequest request (ascii "status") (ascii "systemd.unit.status")
      (requiredUnitParam request))
    (σ ++ [Action.executed (tools.diagnoseTool host).name request])
  rcases Run.bind_cases hr with ⟨_, hc, -⟩ | ⟨s₁, status, s₂, hc, hrest, rfl⟩
  · rw [← KaslidTools.statusTool, hc] at hstatus
    rw [hstatus]
    exact ⟨⟨[ascii "journal.query"], rfl⟩, fun _ => List.mem_singleton_self _⟩
  -- the status tool returned, so the journal tool is called, and nothing after it
  rw [← KaslidTools.statusTool, hc] at hstatus
  obtain ⟨rest, hadds, haside⟩ :=
    Run.bind_adds (fun journal => (Run.only_ask _ _).bind fun timestamp =>
    Run.only_pure IsAside (diagnose request (requiredUnitParam request) timestamp status journal))
    (σ ++ [Action.executed (tools.diagnoseTool host).name request] ++ s₁)
  have hjournal := executedTools_leaf tools.journal (ascii "journal.query")
    (childRequest request (ascii "journal") (ascii "journal.query") (requiredUnitParam request))
    (σ ++ [Action.executed (tools.diagnoseTool host).name request] ++ s₁)
  have hs₂ : executedTools s₂ = [ascii "journal.query"] := by
    rw [show s₂ = _ from (congrArg Prod.fst hrest).symm.trans hadds, executedTools_append,
      executedTools_of_asides haside, List.append_nil]
    exact hjournal
  rw [executedTools_append, hstatus, hs₂]
  exact ⟨List.prefix_refl _, fun _ => List.mem_cons_self⟩

/-- A tool of the daemon does not answer that it is denied. -/
theorem settle_status {tool : Tool} (h : tool ∈ (tools.registry host).tools) (request : ToolRequest)
    (σ : History) : (settle request ((tool.call request).run σ).2).status ≠ .denied := by
  rcases hr : ((tool.call request).run σ).2 with error | response
  · cases error with
    | std what => exact ToolStatus.noConfusion
    | other => exact ToolStatus.noConfusion
  · rw [Tool.call, Run.run_emit_bind] at hr
    rcases leaf_or_diagnose h with ⟨leaf, name, -, rfl, -⟩ | rfl
    · exact leaf.answers request _ response hr
    · exact diagnoseCall_status (Prod.ext rfl hr)

end

/-! ### Accounts -/

/-- A call that the session made: the tool it ran, and the tools that one ran itself. -/
structure Entry where
  tool : Bytes
  nested : List Bytes
  tool_mem : tool ∈ KaslidTools.names
  nested_prefix : nested <+: [ascii "systemd.unit.status", ascii "journal.query"]
  nested_nil : tool ≠ ascii "service.diagnose" → nested = []

def Entry.executed (entry : Entry) : List Bytes := entry.tool :: entry.nested

/-- The executions are those of some calls, and the records are those of the same calls, in
order. -/
def Accounted (σ : History) : Prop :=
  ∃ entries : List Entry, executedTools σ = entries.flatMap Entry.executed ∧
    recordedTools σ = entries.map Entry.tool

theorem accounted_append {σ τ : History} (h : Accounted σ) (h' : Accounted τ) :
    Accounted (σ ++ τ) := by
  obtain ⟨l, he, hr⟩ := h
  obtain ⟨l', he', hr'⟩ := h'
  exact ⟨l ++ l', by rw [executedTools_append, he, he', List.flatMap_append],
    by rw [recordedTools_append, hr, hr', List.map_append]⟩

theorem accounted_of_asides {s : History} (h : ∀ a ∈ s, IsAside a) : Accounted s :=
  ⟨[], executedTools_of_asides h, recordedTools_of_asides h⟩

/-- Every execution on an account is of a tool of the registry. -/
theorem Accounted.mem_names {σ : History} (h : Accounted σ) :
    ∀ name ∈ executedTools σ, name ∈ KaslidTools.names := by
  obtain ⟨entries, he, -⟩ := h
  intro name hname
  rw [he] at hname
  obtain ⟨entry, -, hmem⟩ := List.mem_flatMap.mp hname
  rcases List.mem_cons.mp hmem with rfl | hmem
  · exact entry.tool_mem
  · have hall : ∀ n ∈ [ascii "systemd.unit.status", ascii "journal.query"],
      n ∈ KaslidTools.names := by decide
    exact hall name (entry.nested_prefix.subset hmem)

/-- The names of the registry are recorded as they are. -/
theorem boundAuditString_name {name : Bytes} (h : name ∈ KaslidTools.names) :
    Session.boundAuditString name = name := by
  have hall : ∀ name ∈ KaslidTools.names, chr '=' ∉ name ∧ chr ':' ∉ name ∧
      name.length ≤ maxAuditStringBytes := by decide +kernel
  obtain ⟨he, hc, hlen⟩ := hall name h
  exact boundString_eq_self he hc hlen

/-- When the request reaches a tool, the record of its call can be written. -/
def CallRecorded (service : SessionService) (σ : History) (request : ToolRequest) : Prop :=
  ∀ tool, service.reached request = some tool →
    CallRecordable service request (ascii "cli") (settle request ((tool.call request).run σ).2)

section

variable {tools : KaslidTools} {host : Host} {audit : AuditLog}
    {request : ToolRequest} {tool : Tool}

theorem reached_mem (h : (tools.service host audit).reached request = some tool) :
    tool ∈ (tools.registry host).tools ∧ tool.name = request.toolName := by
  unfold SessionService.reached at h
  split_ifs at h
  exact ToolRegistry.find_eq_some_iff.mp h

theorem reached_of_mem (h : tool ∈ (tools.registry host).tools)
    (hname : tool.name = request.toolName) :
    (tools.service host audit).reached request = some tool := by
  have hallowed : ((tools.service host audit).policy.decide request).allowed = true :=
    (allowed_iff request).mpr (hname ▸ name_mem h)
  rw [SessionService.reached, if_pos hallowed]
  exact ToolRegistry.find_eq_some_iff.mpr ⟨h, hname⟩

/-- One call makes one entry. -/
theorem exists_entry (h : tool ∈ (tools.registry host).tools)
    (request : ToolRequest) (σ : History) : ∃ entry : Entry, entry.tool = tool.name ∧
      executedTools ((tool.call request).run σ).1 = entry.executed := by
  rcases leaf_or_diagnose h with ⟨leaf, name, hname, rfl, -⟩ | rfl
  · exact ⟨⟨name, [], hname, List.nil_prefix, fun _ => rfl⟩, rfl,
      executedTools_leaf leaf name request σ⟩
  · obtain ⟨nested, hex, hprefix, -⟩ := executedTools_diagnose tools host request σ
    exact ⟨⟨ascii "service.diagnose", nested, by decide, hprefix, fun hne => absurd rfl hne⟩, rfl,
      hex⟩

theorem accounted_callTool (hw : host.Writable) {σ : History}
    (h : CallRecorded (tools.service host audit) σ request) :
    Accounted (((tools.service host audit).callTool host request (ascii "cli")).run σ).1 := by
  rcases hreached : (tools.service host audit).reached request with _ | tool
  · obtain ⟨response, hr, hstatus⟩ := respond_of_none hreached σ
    exact ⟨[], executedTools_callTool hr, recordedTools_of_denied hr hstatus⟩
  · obtain ⟨hmem, hname⟩ := reached_mem hreached
    have hr := respond_of_reached hreached σ
    obtain ⟨entry, htool, hex⟩ := exists_entry hmem request σ
    refine ⟨[entry], ?_, ?_⟩
    · rw [executedTools_callTool hr, hex, List.flatMap_singleton]
    · rw [recordedTools_of_recordable hr hw (settle_status hmem request σ) (h tool hreached),
        ← hname, boundAuditString_name (name_mem hmem), ← htool]
      rfl

/-- In a writable log whose records of calls can all be written, each execution that the session
makes has its record, and the others are made within one of the aggregating tool; all are
allowed. -/
theorem executions_audited (hw : host.Writable) (parser : Parser) (model : ModelProvider)
    (inputs : List Bytes)
    (hrec : ∀ is input js request, inputs = is ++ input :: js →
      toolRequest? parser input = some request → CallRecorded (tools.service host audit)
        (Run.history (handleRequest parser (tools.service host audit) host model) [] is) request) :
    Accounted (Run.history (handleRequest parser (tools.service host audit) host model) [] inputs) ∧
    ∀ name ∈ executedTools
        (Run.history (handleRequest parser (tools.service host audit) host model) [] inputs),
      ∀ request : ToolRequest, request.toolName = name →
        ((tools.service host audit).policy.decide request).allowed = true := by
  have hacc : Accounted (Run.history (handleRequest parser (tools.service host audit) host model) []
      inputs) := by
    refine Run.history_induction ⟨[], rfl, rfl⟩ fun is input js his hc => accounted_append hc ?_
    rcases handleRequest_adds parser (tools.service host audit) host model input
      (Run.history (handleRequest parser (tools.service host audit) host model) [] is)
      with ⟨request, hrequest, rest, hs, hrest⟩ | ⟨-, hs⟩
    · rw [hs]
      exact accounted_append (accounted_callTool hw (hrec is input js request his hrequest))
        (accounted_of_asides hrest)
    · exact accounted_of_asides hs
  exact ⟨hacc, fun name hname request hr =>
    (allowed_iff request).mpr (hr ▸ hacc.mem_names name hname)⟩

/-- A line that has a unit diagnosed runs the status tool, and no record of it names that tool. -/
theorem unrecorded_status (tools : KaslidTools) (audit : AuditLog) (hw : host.Writable)
    (parser : Parser) (model : ModelProvider) {input : Bytes}
    (hrequest : toolRequest? parser input = some request)
    (hname : request.toolName = ascii "service.diagnose") (hunit : requiredUnitParam request ≠ [])
    (σ : History) :
    ascii "systemd.unit.status" ∈
        executedTools ((handleRequest parser (tools.service host audit) host model input).run σ).1 ∧
      ascii "systemd.unit.status" ∉
        recordedTools ((handleRequest parser (tools.service host audit) host model input).run
          σ).1 := by
  have hmem : tools.diagnoseTool host ∈ (tools.registry host).tools :=
    List.mem_append_right _ (List.mem_singleton_self _)
  have hreached : (tools.service host audit).reached request = some (tools.diagnoseTool host) :=
    reached_of_mem hmem hname.symm
  have hr := respond_of_reached hreached σ
  rcases handleRequest_adds parser (tools.service host audit) host model input σ
    with ⟨request', hrequest', rest, hs, hrest⟩ | ⟨hnone, -⟩
  swap
  · cases hrequest.symm.trans hnone
  obtain rfl := Option.some.inj (hrequest.symm.trans hrequest')
  rw [hs, executedTools_append, executedTools_of_asides hrest, List.append_nil,
    recordedTools_append, recordedTools_of_asides hrest, List.append_nil, executedTools_callTool hr]
  constructor
  · obtain ⟨nested, hex, -, hnested⟩ := executedTools_diagnose tools host request σ
    rw [hex]
    exact List.mem_cons_of_mem _ (hnested hunit)
  · by_cases hrec : CallRecordable (tools.service host audit) request (ascii "cli")
        (settle request (((tools.diagnoseTool host).call request).run σ).2)
    · rw [recordedTools_of_recordable hr hw (settle_status hmem request σ) hrec, hname,
        boundAuditString_name (by decide)]
      decide
    · rw [recordedTools_of_not_recordable hr hrec]
      exact List.not_mem_nil

end

/-! ### A run whose records are complete, and one whose are not -/

/-- A tool that always gives the same response. -/
def steadyLeaf (response : ToolResponse) (h : response.status ≠ .denied) : LeafCall where
  body _ := pure response
  silent _ _ := rfl
  answers _ _ _ heq := Except.ok.inj heq ▸ h

def infoTools : KaslidTools :=
  let leaf := steadyLeaf infoResponse ToolStatus.noConfusion
  ⟨leaf, leaf, leaf, leaf, leaf, leaf, leaf, leaf, leaf, leaf, leaf, leaf⟩

def infoToolsService : SessionService := infoTools.service stillHost ⟨ascii "audit.jsonl"⟩

/-- The line that asks for a call. -/
def callLine (toolName : Bytes) (params : List (Bytes × Json)) : Json :=
  .ofPairs [(ascii "id", .string (ascii "1")), (ascii "method", .string (ascii "tool.call")),
    (ascii "tool", .ofPairs [(ascii "id", .string (ascii "r1")),
      (ascii "tool_name", .string toolName), (ascii "risk", .string (ascii "read_only")),
      (ascii "params", .ofPairs params)])]

def infoLine : Json := callLine (ascii "system.info") []

theorem encodable_infoLine : infoLine.Encodable := by decide +kernel

theorem toolRequest?_infoLine :
    toolRequest? (lineParser infoLine encodable_infoLine) infoLine.render = some infoRequest := by
  have hd : decode infoLine = .ok (.call infoRequest) := by decide +kernel
  simp only [toolRequest?, parse_lineParser, hd]

/-- The call of that line is recorded. -/
theorem callRecorded_info (σ : History) : CallRecorded infoToolsService σ infoRequest := by
  intro tool htool
  have hmem : infoTools.systemInfo.tool (ascii "system.info") ∈
      (infoTools.registry stillHost).tools :=
    List.mem_append_left _ (by simp [KaslidTools.leaves])
  obtain rfl := Option.some.inj (htool.symm.trans (reached_of_mem hmem rfl))
  have hascii : ∀ value, IsAscii value → CutsClean value maxAuditStringBytes := fun value h =>
    cutsClean_of_isAscii h _
  exact (recordable_toolCall (by decide) infoRequest_valid infoResponse_valid _).mpr
    ⟨hascii _ (by decide), hascii _ (by decide), by simp [infoRequest, OrderedMap.empty],
      cutsClean_of_isAscii (by decide +kernel) _, hascii _ (by decide),
      ⟨by simp [infoResponse], cutsClean_of_isAscii (by decide +kernel) _⟩⟩

theorem executions_audited_info :
    Accounted (Run.history (handleRequest (lineParser infoLine encodable_infoLine)
      infoToolsService stillHost (constantModel [])) [] [infoLine.render]) ∧
    ∀ name ∈ executedTools (Run.history (handleRequest (lineParser infoLine encodable_infoLine)
        infoToolsService stillHost (constantModel [])) [] [infoLine.render]),
      ∀ request : ToolRequest, request.toolName = name →
        (infoToolsService.policy.decide request).allowed = true := by
  refine executions_audited (fun _ _ => rfl) _ _ _ fun is input js request his hrequest => ?_
  have hmem : input ∈ [infoLine.render] := his ▸ by simp
  obtain rfl := List.mem_singleton.mp hmem
  obtain rfl := Option.some.inj (toolRequest?_infoLine.symm.trans hrequest)
  exact callRecorded_info _

def diagnoseLine : Json := callLine (ascii "service.diagnose")
    [(ascii "unit", .string (ascii "ssh.service"))]

def diagnoseRequest : ToolRequest :=
  { id := ascii "r1", toolName := ascii "service.diagnose", risk := .readOnly,
    params := .ofList [(ascii "unit", ascii "ssh.service")] }

/-- When a unit is diagnosed the status tool runs more often than it is recorded to have run. -/
theorem executions_unaudited :
    ¬ ∀ (tools : KaslidTools) (host : Host) (audit : AuditLog) (parser : Parser)
      (model : ModelProvider) (inputs : List Bytes) (name : Bytes), host.Writable →
      (executedTools (Run.history (handleRequest parser (tools.service host audit) host model)
        [] inputs)).count
          name =
        (recordedTools (Run.history (handleRequest parser (tools.service host audit) host model) []
          inputs)).count name := by
  have hencodable : diagnoseLine.Encodable := by decide +kernel
  have hd : decode diagnoseLine = .ok (.call diagnoseRequest) := by decide +kernel
  have hrequest : toolRequest? (lineParser diagnoseLine hencodable) diagnoseLine.render =
      some diagnoseRequest := by
    simp only [toolRequest?, parse_lineParser, hd]
  have hw : stillHost.Writable := fun _ _ => rfl
  obtain ⟨hran, hnot⟩ := unrecorded_status infoTools ⟨ascii "audit.jsonl"⟩ hw
    (lineParser diagnoseLine hencodable) (constantModel []) hrequest rfl (by decide +kernel) []
  intro h
  have hcount := h infoTools stillHost ⟨ascii "audit.jsonl"⟩ (lineParser diagnoseLine hencodable)
    (constantModel []) ([] ++ [diagnoseLine.render]) (ascii "systemd.unit.status") hw
  rw [Run.history_concat, Run.history_nil, List.nil_append] at hcount
  rw [List.count_eq_zero.mpr hnot] at hcount
  exact absurd hran (List.count_eq_zero.mp hcount)

end Kasli.Kaslid
