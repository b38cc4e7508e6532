import Kasli.Tools.StatusReading

/-! A status that is written and read back. The status tool writes the fields of a unit as lines
of a key and a value (`format_systemd_unit_status_body`), and the diagnosis takes the lines apart
again (`parse_key_value_lines`). Nothing is lost but what redaction takes, whatever the values
are, as long as they are on one line and the body is not cut. -/

namespace Kasli.Tools

open Core Systemd

/-- No string of a status has the end of a line. -/
def Systemd.SystemdUnitStatusEvidence.OneLine (evidence : SystemdUnitStatusEvidence) : Prop :=
  ∀ value ∈ [evidence.unit, evidence.id, evidence.description, evidence.loadState,
    evidence.activeState, evidence.subState, evidence.unitFileState, evidence.fragmentPath,
    evidence.serviceResult, evidence.execMainCode, evidence.execMainStatus], newline ∉ value

instance (evidence : SystemdUnitStatusEvidence) : Decidable evidence.OneLine :=
  inferInstanceAs (Decidable (∀ value ∈ [evidence.unit, _, _, _, _, _, _, _, _, _, _],
    newline ∉ value))

/-- The values of the fields that are written are among the strings. -/
theorem newline_notMem_statusPairs {evidence : SystemdUnitStatusEvidence}
    (h : evidence.OneLine) : ∀ p ∈ statusPairs evidence, newline ∉ p.2 := by
  intro p hp
  refine h p.2 ?_
  rw [statusPairs] at hp
  rcases List.mem_append.mp hp with hp | hp
  · exact List.mem_append_left [evidence.serviceResult, evidence.execMainCode,
      evidence.execMainStatus] (List.mem_map_of_mem (f := Prod.snd) hp)
  · split_ifs at hp
    · exact List.mem_append_right [evidence.unit, evidence.id, evidence.description,
        evidence.loadState, evidence.activeState, evidence.subState, evidence.unitFileState,
        evidence.fragmentPath] (List.mem_map_of_mem (f := Prod.snd) hp)
    · cases hp

/-- No key is written twice. -/
theorem nodup_statusPairs (evidence : SystemdUnitStatusEvidence) :
    ((statusPairs evidence).map Prod.fst).Nodup := by
  unfold statusPairs
  split_ifs
  · simp only [List.map_append, List.map_cons, List.map_nil]
    decide
  · simp only [List.map_append, List.map_cons, List.map_nil]
    decide

/-- The body before it is cut. -/
def unitStatusText (evidence : SystemdUnitStatusEvidence) : Bytes :=
  (BodyInput.unitStatus evidence).fullText

/-- Each field of a status is read back redacted, under its key, and there are no other keys. -/
theorem status_read_back (evidence : SystemdUnitStatusEvidence) (hlines : evidence.OneLine)
    (hfits : (unitStatusText evidence).length ≤ Systemd.maxBodyBytes) :
    ∃ body, formatSystemdUnitStatusBody evidence = some body ∧
      ∀ key value, (parseKeyValueLines body).find? key = some value ↔
        (key, value) ∈ (statusPairs evidence).map fun p => (p.1, redactLikelySecret p.2) := by
  have hformat : formatSystemdUnitStatusBody evidence = some (unitStatusText evidence) :=
    (BodyInput.unitStatus evidence).format_eq.trans (congrArg some (capped_of_le hfits))
  have htext : unitStatusText evidence =
      ((statusPairs evidence).map fun p => (p.1, redactLikelySecret p.2)).flatMap fun p =>
        line (said p.1 p.2) := unitStatusLines_eq evidence
  refine ⟨_, hformat, fun key value => ?_⟩
  rw [htext, parseKeyValueLines_flatMap_said, OrderedMap.find?_ofList]
  · refine OrderedMap.lookup_eq_some_of_nodup ?_
    rw [List.map_map]
    exact nodup_statusPairs evidence
  · exact List.forall_mem_map.mpr fun p hp => statusPairs_keys evidence p hp
  · exact List.forall_mem_map.mpr fun p hp =>
      kept_notMem_newline.redact (newline_notMem_statusPairs hlines p hp)

/-- A service whose fields have signs, blanks and keys in them. -/
def oddService : SystemdUnitStatusEvidence where
  unit := ascii "a=b.service"
  id := ascii "id=unit=x"
  description := ascii " = "
  loadState := []
  activeState := ascii "active_state=failed"
  subState := []
  unitFileState := []
  fragmentPath := []
  isService := true
  serviceResult := []
  execMainCode := ascii "1"
  execMainStatus := ascii "0"

theorem status_read_back_oddService : ∃ body, formatSystemdUnitStatusBody oddService = some body ∧
    ∀ key value, (parseKeyValueLines body).find? key = some value ↔
      (key, value) ∈ (statusPairs oddService).map fun p => (p.1, redactLikelySecret p.2) :=
  status_read_back oddService (by decide) (by decide +kernel)

end Kasli.Tools
