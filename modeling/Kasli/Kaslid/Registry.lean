import Kasli.Session.SessionService
import Kasli.Tools.ServiceDiagnose

/-! The registry of the daemon (`kaslid/main.cpp`): twelve tools that call no other tool,
and the aggregating tool, which holds two of them. All are read-only and their names are
distinct, so every addition is accepted and the broker allows every name of the registry
and no other. -/

namespace Kasli.Kaslid

open Core Policy Audit Session Tools

/-- What the call of a tool does that calls no other tool and never answers that it is denied. -/
structure LeafCall where
  body : ToolRequest → Act ToolResponse
  silent : ∀ request σ, ((body request).run σ).1 = []
  answers : ∀ request σ response, ((body request).run σ).2 = .ok response →
    response.status ≠ .denied

def LeafCall.tool (leaf : LeafCall) (name : Bytes) : Tool where
  name
  risk := .readOnly
  body := leaf.body
  quiet request σ a ha := by simp [leaf.silent] at ha

/-- The calls of the daemon's tools, which read the system. -/
structure KaslidTools where
  systemInfo : LeafCall
  diskUsage : LeafCall
  hardwareSummary : LeafCall
  networkSummary : LeafCall
  powerStatus : LeafCall
  packageRecentChanges : LeafCall
  packageList : LeafCall
  systemdUnits : LeafCall
  systemdUnitStatus : LeafCall
  failedServices : LeafCall
  enabledServices : LeafCall
  journal : LeafCall

namespace KaslidTools

variable (tools : KaslidTools) (host : Host)

def statusTool : Tool := tools.systemdUnitStatus.tool (ascii "systemd.unit.status")

def journalTool : Tool := tools.journal.tool (ascii "journal.query")

def diagnoseTool : Tool := serviceDiagnoseTool host tools.statusTool tools.journalTool

/-- The tools that are added first. -/
def leaves : List Tool :=
  [tools.systemInfo.tool (ascii "system.info"), tools.diskUsage.tool (ascii "disk.usage"),
    tools.hardwareSummary.tool (ascii "hardware.summary"),
    tools.networkSummary.tool (ascii "network.summary"),
      tools.powerStatus.tool (ascii "power.status"),
    tools.packageRecentChanges.tool (ascii "packages.recent_changes"),
    tools.packageList.tool (ascii "packages.list"),
      tools.systemdUnits.tool (ascii "systemd.units.list"),
    tools.statusTool, tools.failedServices.tool (ascii "services.failed"),
    tools.enabledServices.tool (ascii "services.enabled"), tools.journalTool]

def names : List Bytes :=
  [ascii "system.info", ascii "disk.usage", ascii "hardware.summary", ascii "network.summary",
    ascii "power.status", ascii "packages.recent_changes", ascii "packages.list",
    ascii "systemd.units.list", ascii "systemd.unit.status", ascii "services.failed",
    ascii "services.enabled", ascii "journal.query", ascii "service.diagnose"]

theorem names_tools : (tools.leaves ++ [tools.diagnoseTool host]).map Tool.name = names := rfl

theorem names_nodup : names.Nodup := by decide +kernel

/-- The finished registry. -/
def registry : ToolRegistry := ⟨tools.leaves ++ [tools.diagnoseTool host], names_nodup⟩

/-- The service of the daemon, whose broker is made of the finished registry. -/
def service (audit : AuditLog) : SessionService :=
  { registry := tools.registry host, policy := .ofPolicies (tools.registry host).policies, audit }

end KaslidTools

/-! ### Building the registry -/

/-- The additions one after another; a rejected one ends the program. -/
def registerAll (registry : ToolRegistry) (tools : List Tool) : Except Bytes ToolRegistry :=
  tools.foldlM (fun registry tool =>
    match registry.add (some tool) with
    | (added, .ok ()) => .ok added
    | (_, .error what) => .error what) registry

def buildRegistry (host : Host) (tools : KaslidTools) : Except Bytes ToolRegistry := do
  let registry ← registerAll .empty tools.leaves
  match registry.find (ascii "systemd.unit.status"), registry.find (ascii "journal.query") with
  | some statusTool, some journalTool =>
    registerAll registry [serviceDiagnoseTool host statusTool journalTool]
  | _, _ => .error (ascii "service diagnosis dependencies are not registered")

/-- Tools of new and distinct names are all accepted. -/
theorem registerAll_of_nodup {registry : ToolRegistry} {tools : List Tool}
    (h : ((registry.tools ++ tools).map Tool.name).Nodup) :
    registerAll registry tools = .ok ⟨registry.tools ++ tools, h⟩ := by
  induction tools generalizing registry with
  | nil =>
    have he : registry = ⟨registry.tools ++ [], h⟩ := by simp
    exact congrArg Except.ok he
  | cons tool tools ih =>
    have hnew : registry.find tool.name = none := by
      rw [ToolRegistry.find_eq_none_iff, ToolRegistry.names]
      rw [List.map_append, List.nodup_append] at h
      exact fun hmem => h.2.2 _ hmem _ (by simp) rfl
    have hadd : registry.add (some tool) = (⟨registry.tools ++ [tool], ToolRegistry.nodup_concat
        registry.names_nodup (ToolRegistry.find_eq_none_iff.mp hnew)⟩, .ok ()) := dif_pos hnew
    rw [registerAll, List.foldlM_cons]
    simp only [hadd, ok_bind]
    have hrest : (((registry.tools ++ [tool]) ++ tools).map Tool.name).Nodup := by simpa using h
    have hih := @ih ⟨registry.tools ++ [tool], ToolRegistry.nodup_concat
      registry.names_nodup (ToolRegistry.find_eq_none_iff.mp hnew)⟩ hrest
    simpa [registerAll] using hih

/-- The program builds the finished registry. -/
theorem buildRegistry_eq (host : Host) (tools : KaslidTools) :
    buildRegistry host tools = .ok (tools.registry host) := by
  have hleaves : (tools.leaves.map Tool.name).Nodup :=
    KaslidTools.names_nodup.sublist
      ((List.sublist_append_left tools.leaves [tools.diagnoseTool host]).map _)
  have hfirst : registerAll .empty tools.leaves = .ok ⟨tools.leaves, hleaves⟩ :=
    @registerAll_of_nodup .empty tools.leaves hleaves
  have hfind : ∀ tool ∈ tools.leaves,
      (ToolRegistry.mk tools.leaves hleaves).find tool.name = some tool := fun tool hmem =>
    ToolRegistry.find_eq_some_iff.mpr ⟨hmem, rfl⟩
  have hstatus : (ToolRegistry.mk tools.leaves hleaves).find (ascii "systemd.unit.status") =
      some tools.statusTool := hfind tools.statusTool (by simp [KaslidTools.leaves])
  have hjournal : (ToolRegistry.mk tools.leaves hleaves).find (ascii "journal.query") =
      some tools.journalTool := hfind tools.journalTool (by simp [KaslidTools.leaves])
  rw [buildRegistry, hfirst, ok_bind, hstatus, hjournal]
  exact @registerAll_of_nodup ⟨tools.leaves,
    hleaves⟩ [tools.diagnoseTool host] KaslidTools.names_nodup

/-! ### Tools of the registry -/

section

variable {tools : KaslidTools} {host : Host} {audit : AuditLog} {tool : Tool}

/-- A tool of the registry calls no other tool, or it is the aggregating tool. -/
theorem leaf_or_diagnose (h : tool ∈ (tools.registry host).tools) :
    (∃ leaf name, name ∈ KaslidTools.names ∧ tool = LeafCall.tool leaf name ∧
      name ≠ ascii "service.diagnose") ∨ tool = tools.diagnoseTool host := by
  rcases List.mem_append.mp h with h | h
  · left
    simp only [KaslidTools.leaves, List.mem_cons, List.not_mem_nil, or_false] at h
    rcases h with rfl | rfl | rfl | rfl | rfl | rfl | rfl | rfl | rfl | rfl | rfl | rfl
    all_goals exact ⟨_, _, by decide, rfl, by decide⟩
  · exact .inr (List.mem_singleton.mp h)

theorem risk_readOnly (h : tool ∈ (tools.registry host).tools) : tool.risk = .readOnly := by
  rcases leaf_or_diagnose h with ⟨leaf, name, -, rfl, -⟩ | rfl
  · rfl
  · rfl

theorem name_mem (h : tool ∈ (tools.registry host).tools) : tool.name ∈ KaslidTools.names :=
  List.mem_map_of_mem (f := Tool.name) h

/-- The broker allows exactly the names of the registry. -/
theorem allowed_iff (request : ToolRequest) :
    ((tools.service host audit).policy.decide request).allowed = true ↔
      request.toolName ∈ KaslidTools.names := by
  rw [decide_allowed_iff, KaslidTools.service, ToolRegistry.allowedTools_policies,
    Option.map_eq_some_iff]
  constructor
  · rintro ⟨tool, hfind, -⟩
    obtain ⟨hmem, hname⟩ := ToolRegistry.find_eq_some_iff.mp hfind
    exact hname ▸ name_mem hmem
  · intro h
    obtain ⟨tool, hmem, hname⟩ := List.mem_map.mp (tools.names_tools host ▸ h)
    exact ⟨tool, ToolRegistry.find_eq_some_iff.mpr ⟨hmem, hname⟩, risk_readOnly hmem⟩

end

end Kasli.Kaslid
