import Kasli.Kaslid.Registry
import Kasli.Tools.Bodies
import Kasli.Tools.Hardware

/-! The daemon's tools with what they read. What the system answers is a parameter and may
depend on all that happened before. The evidence of every tool is within 64 KiB, except
that the system info tool reports its file as it is. -/

namespace Kasli.Kaslid

open Core Session Tools

/-- The journal tool that is built in. -/
inductive JournalSource
  | fixture (parse : Bytes → Option Json) (path : Bytes) (text : History → Option Bytes)
  | live (reply : History → Bytes → Journal.JournalReply)

/-- What the tools read, and how equal rows are ordered. -/
structure Readings where
  osRelease : History → Option Bytes
  uname : History → Option SystemInfo.UtsName
  diskUsage : History → Disk.DiskUsageResult
  hardwareSummary : History → Hardware.HardwareSummaryResult
  networkSummary : History → Network.NetworkSummaryResult
  powerStatus : History → Power.PowerStatusResult
  changeSorting : Sorting Package.laterChange
  packageLogs : History → List Package.LogFile
  packageSorting : Sorting Package.packageBefore
  packageCommand : History → Package.PackageCommandResult
  units : History → Systemd.ListReply Systemd.UnitEntry
  unitStatus : History → Bytes → Systemd.UnitReply
  failedServices : History → Systemd.ListReply Systemd.UnitEntry
  enabledServices : History → Systemd.ListReply Systemd.UnitFileEntry
  journal : JournalSource

/-- An error without evidence, or one record whose body has the property. -/
inductive Reports (p : Bytes → Prop) (request : ToolRequest) : Option ToolResponse → Prop
  | failed (message : Bytes) : Reports p request (some (errorResponse request message))
  | reported (name message summary body timestamp : Bytes) (h : p body) :
    Reports p request (some (okResponse request name message summary body timestamp))

/-- A body within the limit of the evidence. -/
def Small (body : Bytes) : Prop := body.length ≤ 64 * 1024

section Calls

variable {request : ToolRequest} {p : Bytes → Prop}

theorem Reports.ne_denied {result : Option ToolResponse} (h : Reports p request result)
    {response : ToolResponse} (hr : result = some response) : response.status ≠ .denied := by
  cases h with
  | failed message => obtain rfl := Option.some.inj hr; exact ToolStatus.noConfusion
  | reported name message summary body timestamp h =>
    obtain rfl := Option.some.inj hr; exact ToolStatus.noConfusion

/-- The bodies of a report have the property. -/
theorem Reports.body {result : Option ToolResponse} (h : Reports p request result)
    {response : ToolResponse}
    (hr : result = some response) : ∀ e ∈ response.evidence, p e.body := by
  cases h with
  | failed message =>
    obtain rfl := Option.some.inj hr
    simp [errorResponse]
  | reported name message summary body timestamp h =>
    obtain rfl := Option.some.inj hr
    simpa [okResponse] using h

theorem small_format {input : BodyInput} {body : Bytes} (h : input.format = some body) :
    Small body := by
  rw [input.format_eq] at h
  rw [← Option.some.inj h]
  have hcap : ∀ cap ∈ bodyCaps, cap ≤ 64 * 1024 := by decide
  exact Nat.le_trans (length_capped_le input.marker_le_cap _) (hcap _ input.cap_mem)

/-- A report of a formatted body is small. -/
theorem reports_format (input : BodyInput) (name message summary timestamp : Bytes) :
    Reports Small request (input.format.bind fun body =>
      some (okResponse request name message summary body timestamp)) := by
  cases h : input.format with
  | none => exact absurd (input.format_eq.symm.trans h) (by simp)
  | some body => exact .reported name message summary body timestamp (small_format h)

variable (timestamp : Bytes)

theorem reports_diskUsage (result : Disk.DiskUsageResult) :
    Reports Small request (Disk.diskUsageCall result timestamp request) := by
  unfold Disk.diskUsageCall
  split_ifs
  · exact .failed _
  · exact .failed _
  · exact reports_format (.diskUsage result.rows result.hasMoreRows) ..

theorem reports_hardwareSummary (result : Hardware.HardwareSummaryResult) :
    Reports Small request (Hardware.hardwareSummaryCall result timestamp request) := by
  unfold Hardware.hardwareSummaryCall
  split_ifs
  · exact .failed _
  · exact .failed _
  · exact reports_format (.hardwareSummary result.summary) ..

theorem reports_networkSummary (result : Network.NetworkSummaryResult) :
    Reports Small request (Network.networkSummaryCall result timestamp request) := by
  unfold Network.networkSummaryCall
  split_ifs
  · exact .failed _
  · exact .failed _
  · exact reports_format (.networkSummary result.rows result.hasMoreRows) ..

theorem reports_powerStatus (result : Power.PowerStatusResult) :
    Reports Small request (Power.powerStatusCall result timestamp request) := by
  unfold Power.powerStatusCall
  split_ifs
  · exact .failed _
  · exact .failed _
  · exact reports_format (.powerStatus result.rows result.hasMoreRows) ..

theorem reports_packageRecentChanges (sorting : Sorting Package.laterChange)
    (logs : List Package.LogFile) :
    Reports Small request (Package.packageRecentChangesCall sorting logs timestamp request) := by
  unfold Package.packageRecentChangesCall
  split_ifs
  · exact .failed _
  · exact reports_format (.packageChanges _ _) ..

theorem reports_packageList (sorting : Sorting Package.packageBefore)
    (result : Package.PackageCommandResult) :
    Reports Small request (Package.packageListCall sorting result timestamp request) := by
  unfold Package.packageListCall
  split_ifs
  · exact .failed _
  · exact .failed _
  · exact reports_format (.packageList _ _) ..

theorem reports_units (reply : Systemd.ListReply Systemd.UnitEntry) :
    Reports Small request (Systemd.unitsCall reply timestamp request) := by
  unfold Systemd.unitsCall
  split
  · exact .failed _
  · exact reports_format (.unitsList _ _) ..

theorem reports_failedServices (reply : Systemd.ListReply Systemd.UnitEntry) :
    Reports Small request (Systemd.failedServicesCall reply timestamp request) := by
  unfold Systemd.failedServicesCall
  split
  · exact .failed _
  · exact reports_format (.failedServices _ _) ..

theorem reports_enabledServices (reply : Systemd.ListReply Systemd.UnitFileEntry) :
    Reports Small request (Systemd.enabledServicesCall reply timestamp request) := by
  unfold Systemd.enabledServicesCall
  split
  · exact .failed _
  · exact reports_format (.enabledServices _ _) ..

theorem reports_unitStatus (reply : Bytes → Systemd.UnitReply) :
    Reports Small request (Systemd.unitStatusCall reply timestamp request) := by
  unfold Systemd.unitStatusCall
  dsimp only
  split
  · exact .failed _
  · split
    · exact .failed _
    · exact .failed _
    · exact .failed _
    · exact .failed _
    · exact reports_format (.unitStatus _) ..

theorem reports_journalFixture (parse : Bytes → Option Json) (path : Bytes)
    (fixture : Option Bytes) :
    Reports Small request (Journal.journalFixtureCall parse path fixture timestamp request) := by
  unfold Journal.journalFixtureCall
  dsimp only
  split
  · exact .failed _
  · split
    · exact .failed _
    · exact reports_format (.journalFixture _ _ _) ..

theorem reports_liveJournal (reply : Bytes → Journal.JournalReply) :
    Reports Small request (Journal.liveJournalCall reply timestamp request) := by
  unfold Journal.liveJournalCall
  dsimp only
  split
  · exact .failed _
  · split
    · exact .failed _
    · exact .failed _
    · exact .failed _
    · exact .failed _
    · next read fails _ =>
      obtain ⟨result, hloop, htext, -⟩ := Journal.liveLoop_ofText fails [] 0 read
      rw [Body.ofText_nil] at hloop
      rw [hloop, Option.bind_eq_bind, Option.bind_some]
      cases result with
      | none => exact .failed _
      | some body =>
        refine .reported _ _ _ _ _ ?_
        rw [htext body rfl]
        exact Nat.le_trans (length_capped_le Journal.marker_le _) (by decide)

theorem reports_systemInfo (osRelease : Option Bytes) (uname : Option SystemInfo.UtsName) :
    Reports (· = SystemInfo.systemInfoBody osRelease uname) request
      (SystemInfo.systemInfoCall osRelease uname timestamp request) :=
  .reported _ _ _ _ _ rfl

end Calls

/-! ### The tools of the daemon -/

/-- A call that reads something and reports it. -/
def leafCall (host : Host) (call : History → Bytes → ToolRequest → Option ToolResponse)
    (p : History → Bytes → Prop)
    (reports : ∀ σ timestamp request, Reports (p σ) request (call σ timestamp request)) :
    LeafCall where
  body request := Run.ask fun σ =>
    match call σ (formatUtc (host.utc σ)) request with
    | some response => .ok response
    | none => .error .other
  silent _ _ := rfl
  answers request σ response h := by
    rw [Run.run_ask] at h
    dsimp only at h
    split at h
    · next r hr =>
      exact (reports σ _ request).ne_denied (hr.trans (congrArg some (Except.ok.inj h)))
    · cases h

/-- What a call reads determines what it says of its evidence. -/
theorem leafCall_body {host : Host} {call : History → Bytes → ToolRequest → Option ToolResponse}
    {p : History → Bytes → Prop}
    (reports : ∀ σ timestamp request, Reports (p σ) request (call σ timestamp request))
    {request : ToolRequest} {σ s : History} {response : ToolResponse}
    (h : ((leafCall host call p reports).body request).run σ = (s, .ok response)) :
    ∀ e ∈ response.evidence, p σ e.body := by
  simp only [leafCall, Run.run_ask, Prod.mk.injEq] at h
  obtain ⟨-, h⟩ := h
  split at h
  · next r hr => exact (reports σ _ request).body (hr.trans (congrArg some (Except.ok.inj h)))
  · cases h

section

variable (host : Host) (readings : Readings)

def journalCall (σ : History) (timestamp : Bytes) (request : ToolRequest) : Option ToolResponse :=
  match readings.journal with
  | .fixture parse path text => Journal.journalFixtureCall parse path (text σ) timestamp request
  | .live reply => Journal.liveJournalCall (reply σ) timestamp request

theorem reports_journal (σ : History) (timestamp : Bytes) (request : ToolRequest) :
    Reports Small request (journalCall readings σ timestamp request) := by
  unfold journalCall
  split
  · exact reports_journalFixture timestamp _ _ _
  · exact reports_liveJournal timestamp _

def Readings.tools : KaslidTools where
  systemInfo := leafCall host (fun σ =>
    SystemInfo.systemInfoCall (readings.osRelease σ) (readings.uname σ))
    (fun σ body => body = SystemInfo.systemInfoBody (readings.osRelease σ) (readings.uname σ))
    fun _ t _ => reports_systemInfo t _ _
  diskUsage := leafCall host (fun σ => Disk.diskUsageCall (readings.diskUsage σ)) (fun _ => Small)
    fun _ t _ => reports_diskUsage t _
  hardwareSummary := leafCall host (fun σ =>
    Hardware.hardwareSummaryCall (readings.hardwareSummary σ))
    (fun _ => Small) fun _ t _ => reports_hardwareSummary t _
  networkSummary := leafCall host (fun σ => Network.networkSummaryCall (readings.networkSummary σ))
    (fun _ => Small) fun _ t _ => reports_networkSummary t _
  powerStatus := leafCall host (fun σ => Power.powerStatusCall (readings.powerStatus σ))
    (fun _ => Small) fun _ t _ => reports_powerStatus t _
  packageRecentChanges := leafCall host
    (fun σ => Package.packageRecentChangesCall readings.changeSorting (readings.packageLogs σ))
    (fun _ => Small) fun _ t _ => reports_packageRecentChanges t _ _
  packageList := leafCall host (fun σ =>
    Package.packageListCall readings.packageSorting (readings.packageCommand σ))
    (fun _ => Small) fun _ t _ => reports_packageList t _ _
  systemdUnits := leafCall host (fun σ => Systemd.unitsCall (readings.units σ)) (fun _ => Small)
    fun _ t _ => reports_units t _
  systemdUnitStatus := leafCall host (fun σ => Systemd.unitStatusCall (readings.unitStatus σ))
    (fun _ => Small) fun _ t _ => reports_unitStatus t _
  failedServices := leafCall host (fun σ => Systemd.failedServicesCall (readings.failedServices σ))
    (fun _ => Small) fun _ t _ => reports_failedServices t _
  enabledServices := leafCall host (fun σ =>
    Systemd.enabledServicesCall (readings.enabledServices σ))
    (fun _ => Small) fun _ t _ => reports_enabledServices t _
  journal := leafCall host (journalCall readings) (fun _ => Small) fun σ t request =>
    reports_journal readings σ t request

end

/-! ### Evidence within its limit -/

section

variable {host : Host} {readings : Readings} {tool : Tool} {request : ToolRequest} {σ s : History}
  {response : ToolResponse}

theorem call_body (h : (tool.call request).run σ = (s, .ok response)) :
    ∃ s', (tool.body request).run (σ ++ [.executed tool.name request]) = (s', .ok response) := by
  rw [Tool.call, Run.run_emit_bind] at h
  exact ⟨_, Prod.ext rfl (Prod.mk.inj h).2⟩

/-- Every tool that calls no other reports small bodies, except the system info tool. -/
theorem leaf_small (hmem : tool ∈ (readings.tools host).leaves)
    (hname : tool.name ≠ ascii "system.info") (h : (tool.call request).run σ = (s, .ok response)) :
    ∀ e ∈ response.evidence, Small e.body := by
  obtain ⟨s', hbody⟩ := call_body h
  simp only [KaslidTools.leaves, List.mem_cons, List.not_mem_nil, or_false] at hmem
  rcases hmem with rfl | rfl | rfl | rfl | rfl | rfl | rfl | rfl | rfl | rfl | rfl | rfl
  · exact absurd rfl hname
  · exact leafCall_body (fun _ t _ => reports_diskUsage t _) hbody
  · exact leafCall_body (fun _ t _ => reports_hardwareSummary t _) hbody
  · exact leafCall_body (fun _ t _ => reports_networkSummary t _) hbody
  · exact leafCall_body (fun _ t _ => reports_powerStatus t _) hbody
  · exact leafCall_body (fun _ t _ => reports_packageRecentChanges t _ _) hbody
  · exact leafCall_body (fun _ t _ => reports_packageList t _ _) hbody
  · exact leafCall_body (fun _ t _ => reports_units t _) hbody
  · exact leafCall_body (fun _ t _ => reports_unitStatus t _) hbody
  · exact leafCall_body (fun _ t _ => reports_failedServices t _) hbody
  · exact leafCall_body (fun _ t _ => reports_enabledServices t _) hbody
  · exact leafCall_body (fun τ t r => reports_journal readings τ t r) hbody

theorem statusTool_mem (tools : KaslidTools) :
    tools.statusTool ∈ tools.leaves := by simp [KaslidTools.leaves]

theorem journalTool_mem (tools : KaslidTools) :
    tools.journalTool ∈ tools.leaves := by simp [KaslidTools.leaves]

theorem diagnose_small (h : (((readings.tools host).diagnoseTool host).call request).run σ =
    (s, .ok response)) : ∀ e ∈ response.evidence, Small e.body := by
  obtain ⟨s', hbody⟩ := call_body h
  change (diagnoseCall host (readings.tools host).statusTool (readings.tools host).journalTool
    request).run _ = _ at hbody
  unfold diagnoseCall at hbody
  dsimp only at hbody
  split_ifs at hbody
  · obtain rfl := Except.ok.inj (Prod.mk.inj hbody).2
    simp [missingUnitResponse]
  rcases Run.bind_cases hbody with ⟨_, -, he⟩ | ⟨_, status, _, hstatus, hbody, -⟩
  · cases he
  rcases Run.bind_cases hbody with ⟨_, -, he⟩ | ⟨_, journal, _, hjournal, hbody, -⟩
  · cases he
  rcases Run.bind_cases hbody with ⟨_, -, he⟩ | ⟨_, timestamp, _, -, hbody, -⟩
  · cases he
  obtain rfl := Except.ok.inj (Prod.mk.inj hbody).2
  have hfirst : Small (((diagnosisLines (requiredUnitParam request) status journal).foldl appendLine
      .empty).text) :=
    Nat.le_trans (DiagnosisBody.bounded _) (by decide)
  intro e he
  simp only [diagnose, List.mem_cons, List.mem_append] at he
  rcases he with rfl | he | he
  · exact hfirst
  · exact leaf_small (statusTool_mem _)
      (show ascii "systemd.unit.status" ≠ _ by decide) hstatus e he
  · exact leaf_small (journalTool_mem _) (show ascii "journal.query" ≠ _ by decide) hjournal e he

/-- How long the lines of the kernel's names are. -/
def unameBytes : Option SystemInfo.UtsName → ℕ
  | none => 0
  | some info => 27 + info.sysname.length + info.release.length + info.machine.length

theorem length_unameLines (uname : Option SystemInfo.UtsName) :
    (SystemInfo.unameLines uname).length = unameBytes uname := by
  cases uname with
  | none => rfl
  | some info =>
    have hlengths : (ascii "sysname=").length = 8 ∧ (ascii "release=").length = 8 ∧
      (ascii "machine=").length = 8 ∧
        (ascii "\n").length = 1 := by decide
    simp only [SystemInfo.unameLines, List.length_append, hlengths, unameBytes]
    omega

theorem unameBytes_le (uname : Option SystemInfo.UtsName) : unameBytes uname ≤ 219 := by
  cases uname with
  | none => exact Nat.zero_le _
  | some info =>
    have := info.sysname_le
    have := info.release_le
    have := info.machine_le
    simp only [unameBytes]
    omega

/-- The body of the system info tool is small exactly when its file leaves room for the names. -/
theorem small_systemInfoBody_iff (osRelease : Option Bytes) (uname : Option SystemInfo.UtsName) :
    Small (SystemInfo.systemInfoBody osRelease uname) ↔
      ∀ contents, osRelease = some contents → contents ≠ [] →
        contents.length + unameBytes uname ≤ 64 * 1024 := by
  have hu := unameBytes_le uname
  cases osRelease with
  | none =>
    have hlength : (ascii "os_release=unavailable\n").length = 23 := by decide
    have hsmall : Small (SystemInfo.systemInfoBody none uname) := by
      simp only [Small, SystemInfo.systemInfoBody, List.length_append, hlength, length_unameLines]
      omega
    simp [hsmall]
  | some contents =>
    cases contents with
    | nil => simp [Small, SystemInfo.systemInfoBody]
    | cons b contents =>
      simp only [Small, SystemInfo.systemInfoBody, List.length_append, length_unameLines,
        Option.some.injEq, forall_eq', ne_eq, List.cons_ne_nil, not_false_eq_true, forall_const]

theorem run_systemInfo (host : Host) (readings : Readings) (request : ToolRequest) (σ : History) :
    let τ := σ ++ [.executed (ascii "system.info") request]
    (((readings.tools host).systemInfo.tool (ascii "system.info")).call request).run σ =
      ([.executed (ascii "system.info") request], .ok (okResponse request (ascii "system.info")
        (ascii "system info collected") (ascii "OS identity and kernel summary")
        (SystemInfo.systemInfoBody (readings.osRelease τ) (readings.uname τ))
          (formatUtc (host.utc τ)))) := rfl

/-- The system info tool reports a small body exactly when its file leaves room. -/
theorem systemInfo_small_iff (host : Host) (readings : Readings)
    (request : ToolRequest) (σ : History) :
    let τ := σ ++ [.executed (ascii "system.info") request]
    (∀ s response, (((readings.tools host).systemInfo.tool (ascii "system.info")).call request).run
      σ =
        (s, .ok response) → response.status = .ok → ∀ e ∈ response.evidence,
          e.body.length ≤ 64 * 1024) ↔
      ∀ contents, readings.osRelease τ = some contents → contents ≠ [] →
        contents.length + unameBytes (readings.uname τ) ≤ 64 * 1024 := by
  intro τ
  rw [← small_systemInfoBody_iff]
  constructor
  · intro h
    exact h _ _ (run_systemInfo host readings request σ) rfl _ (List.mem_singleton_self _)
  · intro h s response hrun _ e he
    obtain rfl := Except.ok.inj
      (Prod.mk.inj ((run_systemInfo host readings request σ).symm.trans hrun)).2
    rw [List.mem_singleton.mp he]
    exact h

/-- For every tool of the daemon the evidence of its answers is within 64 KiB exactly when the
tool is not the system info tool or the file that it reports leaves room for the names of the
kernel. -/
theorem evidence_bounded_iff (host : Host) (readings : Readings)
    (hmem : tool ∈ ((readings.tools host).registry host).tools)
    (request : ToolRequest) (σ : History) :
    (∀ s response, (tool.call request).run σ = (s, .ok response) → response.status = .ok →
        ∀ e ∈ response.evidence, e.body.length ≤ 64 * 1024) ↔
      (tool.name = ascii "system.info" →
        ∀ contents, readings.osRelease (σ ++ [.executed tool.name request]) =
          some contents → contents ≠ [] →
          contents.length + unameBytes (readings.uname (σ ++ [.executed tool.name request])) ≤
            64 * 1024) := by
  by_cases hname : tool.name = ascii "system.info"
  · have htool : tool = (readings.tools host).systemInfo.tool (ascii "system.info") := by
      have hfind := ToolRegistry.find_eq_some_iff.mpr ⟨hmem, hname⟩
      have hinfo : ((readings.tools host).registry host).find (ascii "system.info") =
          some ((readings.tools host).systemInfo.tool (ascii "system.info")) :=
        ToolRegistry.find_eq_some_iff.mpr ⟨List.mem_cons_self, rfl⟩
      exact Option.some.inj (hfind.symm.trans hinfo)
    subst htool
    simp only [LeafCall.tool, forall_const]
    exact systemInfo_small_iff host readings request σ
  · simp only [hname, false_imp_iff, iff_true]
    intro s response h _ e he
    rcases List.mem_append.mp hmem with hleaf | hdiagnose
    · exact leaf_small hleaf hname h e he
    · obtain rfl := List.mem_singleton.mp hdiagnose
      exact diagnose_small h e he

end

/-! ### A release file of any size -/

/-- A system on which only the release file can be read. -/
def bareReadings (osRelease : Bytes) : Readings where
  osRelease _ := some osRelease
  uname _ := none
  diskUsage _ := { ok := false, error := [], rows := [], hasMoreRows := false }
  hardwareSummary _ :=
    { ok := false, error := [],
      summary := { architecture := [], cpu := ⟨[], [], 0, 0⟩, memory := ⟨0, 0, 0⟩,
                   dmi := ⟨[], [], [], [], [], [], [], []⟩, gpuDevices := [],
                   hasMoreGpuDevices := false } }
  networkSummary _ := { ok := false, error := [], rows := [], hasMoreRows := false }
  powerStatus _ := { ok := false, error := [], rows := [], hasMoreRows := false }
  changeSorting := Package.changeSorting
  packageLogs _ := []
  packageSorting := Package.packageSorting
  packageCommand _ := { ok := false, exitCode := 127, output := [],
                        error := ascii "rpm executable not found" }
  units _ := .notBuilt
  unitStatus _ _ := .notBuilt
  failedServices _ := .notBuilt
  enabledServices _ := .notBuilt
  journal := .live fun _ _ => .notBuilt

def infoRequest : ToolRequest :=
  { id := ascii "1", toolName := ascii "system.info", risk := .readOnly, params := .empty }

/-- A system with a short release file and the names of a kernel. -/
def fedoraReadings : Readings :=
  { bareReadings (ascii "ID=fedora\n") with
    uname := fun _ => some ⟨ascii "Linux", ascii "6.8.5-301.fc40.x86_64", ascii "x86_64",
      by decide, by decide, by decide⟩ }

/-- It is reported, and within the limit. -/
theorem evidence_bounded_small :
    (∃ s response, (((fedoraReadings.tools stillHost).systemInfo.tool
      (ascii "system.info")).call
        infoRequest).run [] = (s, .ok response) ∧ response.status = .ok ∧ response.evidence ≠ []) ∧
      ∀ s response, (((fedoraReadings.tools stillHost).systemInfo.tool
        (ascii "system.info")).call
        infoRequest).run [] = (s, .ok response) → response.status = .ok →
        ∀ e ∈ response.evidence, e.body.length ≤ 64 * 1024 := by
  refine ⟨⟨_, _, run_systemInfo stillHost _ infoRequest [], rfl, List.cons_ne_nil _ _⟩, ?_⟩
  refine (evidence_bounded_iff stillHost fedoraReadings List.mem_cons_self infoRequest []).mpr ?_
  intro _ contents h _
  rw [← Option.some.inj h]
  decide

/-- A release file of one byte more than the limit is reported as it is. -/
theorem evidence_unbounded : ¬ ∀ s response,
    ((((bareReadings (List.replicate (64 * 1024 + 1) (chr 'a'))).tools stillHost).systemInfo.tool
      (ascii "system.info")).call infoRequest).run [] = (s, .ok response) → response.status = .ok →
    ∀ e ∈ response.evidence, e.body.length ≤ 64 * 1024 := by
  intro h
  have hlength := (systemInfo_small_iff stillHost
    (bareReadings (List.replicate (64 * 1024 + 1) (chr 'a')))
    infoRequest []).mp h _ rfl (by rw [List.replicate_succ]; exact List.cons_ne_nil _ _)
  rw [List.length_replicate] at hlength
  exact absurd hlength (by decide)

end Kasli.Kaslid
