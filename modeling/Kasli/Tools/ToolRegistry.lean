import Kasli.Core.Host
import Kasli.Policy.PolicyBroker
import Mathlib.Data.List.Nodup

/-! Tools and their registry (`tools/tool.hpp`, `tools/tool_registry.cpp`). A tool has
no access to the audit log or the model: all its call can add to the history is
executions, its own first and then those of tools it calls itself. A registry holds
tools of distinct names, so a name finds the one tool that bears it, and the policies
built from a registry say of a name what that tool says. -/

namespace Kasli.Tools

open Core Policy

def IsExecution : Action → Prop
  | .executed _ _ => True
  | _ => False

structure Tool where
  name : Bytes
  risk : RiskClass
  body : ToolRequest → Act ToolResponse
  quiet : ∀ request, Run.Only IsExecution (body request)

/-- `Tool::call` -/
def Tool.call (tool : Tool) (request : ToolRequest) : Act ToolResponse := do
  Run.emit (.executed tool.name request)
  tool.body request

theorem only_executes (tool : Tool) (request : ToolRequest) :
    Run.Only IsExecution (tool.call request) :=
  (Run.only_emit trivial).bind fun _ => tool.quiet request

structure ToolRegistry where
  tools : List Tool
  names_nodup : (tools.map Tool.name).Nodup

namespace ToolRegistry

def empty : ToolRegistry := ⟨[], List.nodup_nil⟩

def find (registry : ToolRegistry) (name : Bytes) : Option Tool :=
  registry.tools.find? fun tool => tool.name == name

def names (registry : ToolRegistry) : List Bytes := registry.tools.map Tool.name

def policies (registry : ToolRegistry) : List ToolPolicy :=
  registry.tools.map fun tool => { toolName := tool.name, risk := tool.risk }

theorem find_eq_none_iff {registry : ToolRegistry} {name : Bytes} :
    registry.find name = none ↔ name ∉ registry.names := by
  simp [find, names]

theorem nodup_concat {tools : List Tool} {tool : Tool} (hnodup : (tools.map Tool.name).Nodup)
    (hnew : tool.name ∉ tools.map Tool.name) : ((tools ++ [tool]).map Tool.name).Nodup := by
  rw [List.map_append, List.map_singleton, ← List.concat_eq_append]
  exact hnodup.concat hnew

/-- The registry after an addition, and whether the addition was accepted. `none` is a null
pointer. -/
def add (registry : ToolRegistry) (tool : Option Tool) : ToolRegistry × Except Bytes Unit :=
  match tool with
  | none => (registry, .error (ascii "tool registry cannot add null tool"))
  | some tool =>
    if h : registry.find tool.name = none then
      (⟨registry.tools ++ [tool], nodup_concat registry.names_nodup (find_eq_none_iff.mp h)⟩,
        .ok ())
    else (registry, .error (ascii "tool registry cannot add duplicate tool name"))

/-- The registry after a sequence of additions. -/
def addAll (registry : ToolRegistry) (adds : List (Option Tool)) : ToolRegistry :=
  adds.foldl (fun registry tool => (registry.add tool).1) registry

/-! ### Lookups -/

/-- A name finds exactly the tool that bears it. -/
theorem find_eq_some_iff {registry : ToolRegistry} {name : Bytes} {tool : Tool} :
    registry.find name = some tool ↔ tool ∈ registry.tools ∧ tool.name = name := by
  obtain ⟨tools, hnodup⟩ := registry
  simp only [find]
  induction tools with
  | nil => simp
  | cons t tools ih =>
    rw [List.map_cons, List.nodup_cons] at hnodup
    rw [List.find?_cons, List.mem_cons]
    by_cases ht : t.name = name
    · simp only [ht, BEq.rfl, Option.some.injEq]
      constructor
      · rintro rfl
        exact ⟨.inl rfl, ht⟩
      · rintro ⟨rfl | hmem, hname⟩
        · rfl
        · have hin : t.name ∈ tools.map Tool.name :=
            List.mem_map.mpr ⟨tool, hmem, hname.trans ht.symm⟩
          exact absurd hin hnodup.1
    · have hb : (t.name == name) = false := by simpa using ht
      simp only [hb, ih hnodup.2]
      constructor
      · rintro ⟨hmem, hname⟩
        exact ⟨.inr hmem, hname⟩
      · rintro ⟨rfl | hmem, hname⟩
        · exact absurd hname ht
        · exact ⟨hmem, hname⟩

/-- A rejected addition leaves the registry as it is. -/
theorem add_rejected {registry : ToolRegistry} {tool : Option Tool} {what : Bytes}
    (h : (registry.add tool).2 = .error what) : (registry.add tool).1 = registry := by
  unfold add at h ⊢
  cases tool with
  | none => rfl
  | some tool =>
    dsimp only at h ⊢
    split_ifs at h ⊢
    rfl

/-- An addition leaves the tools in place and may append one. -/
theorem add_tools (registry : ToolRegistry) (tool : Option Tool) :
    ∃ more, (registry.add tool).1.tools = registry.tools ++ more := by
  unfold add
  cases tool with
  | none => exact ⟨[], by simp⟩
  | some tool =>
    dsimp only
    split_ifs
    · exact ⟨[tool], rfl⟩
    · exact ⟨[], by simp⟩

theorem addAll_tools (registry : ToolRegistry) (adds : List (Option Tool)) :
    ∃ more, (registry.addAll adds).tools = registry.tools ++ more := by
  induction adds generalizing registry with
  | nil => exact ⟨[], by simp [addAll]⟩
  | cons tool adds ih =>
    obtain ⟨more, hm⟩ := registry.add_tools tool
    obtain ⟨more', hm'⟩ := ih (registry.add tool).1
    exact ⟨more ++ more', by rw [← List.append_assoc, ← hm, ← hm']; rfl⟩

/-- A tool that is found stays found. -/
theorem find_addAll {registry : ToolRegistry} {name : Bytes} {tool : Tool}
    (adds : List (Option Tool)) (h : registry.find name = some tool) :
    (registry.addAll adds).find name = some tool := by
  obtain ⟨more, hm⟩ := registry.addAll_tools adds
  obtain ⟨hmem, hname⟩ := find_eq_some_iff.mp h
  exact find_eq_some_iff.mpr ⟨hm ▸ List.mem_append_left _ hmem, hname⟩

/-! ### Policies -/

/-- The broker's table and the registry agree on every name. -/
theorem allowedTools_policies (registry : ToolRegistry) (name : Bytes) :
    (PolicyBroker.ofPolicies registry.policies).allowedTools.find? name =
      (registry.find name).map Tool.risk := by
  simp only [PolicyBroker.ofPolicies, OrderedMap.find?_ofList, policies, List.map_map]
  obtain ⟨tools, hnodup⟩ := registry
  simp only [find]
  clear hnodup
  induction tools with
  | nil => rfl
  | cons t tools ih =>
    rw [List.map_cons, OrderedMap.lookup_cons, List.find?_cons]
    by_cases ht : t.name = name
    · simp [ht]
    · have hb : (t.name == name) = false := by simpa using ht
      simp only [Function.comp_apply, hb]
      rw [if_neg fun h => ht h.symm]
      exact ih

end ToolRegistry

end Kasli.Tools
