import Kasli.Core.RedactEdge
import Kasli.Text.CutLines
import Kasli.Tools.DiagnosisLines
import Kasli.Tools.RowText

/-! What a diagnosis says of the properties of a service. The status tool writes each property on
a line, one that could not be read as the text `unavailable`, and the diagnosis reads the
lines back and compares the values. Systemd is asked for the unit as a C string, so a unit it
knows may go on after a NUL, over more than one line. -/

namespace Kasli.Tools

open Core Systemd

/-! ### Lines read back -/

/-- Redaction makes no short text of another one. -/
theorem redactLikelySecret_eq_iff {t : Bytes} (ht : t.length < 16) (he : chr '=' ∉ t)
    (hc : chr ':' ∉ t) (s : Bytes) : redactLikelySecret s = t ↔ s = t := by
  constructor
  · intro h
    rcases unmatched_or_long_redact s with hs | hs
    · rwa [redactLikelySecret_eq_foldl, foldl_unmatched hs] at h
    · rw [h] at hs
      omega
  · rintro rfl
    exact redactLikelySecret_eq_self he hc

/-- A key that can be told from its value. -/
def IsKey (key : Bytes) : Prop := key ≠ [] ∧ chr '=' ∉ key ∧ newline ∉ key

instance (key : Bytes) : Decidable (IsKey key) := inferInstanceAs (Decidable (_ ∧ _))

/-- Lines of keys and values are read back as they were written. -/
theorem parseKeyValueLines_flatMap_said {pairs : List (Bytes × Bytes)}
    (hkeys : ∀ p ∈ pairs, IsKey p.1) (hvalues : ∀ p ∈ pairs, newline ∉ p.2) :
    parseKeyValueLines (pairs.flatMap fun p => line (said p.1 p.2)) = .ofList pairs := by
  have hlines : ∀ s ∈ pairs.map fun p => said p.1 p.2, newline ∉ s := by
    rw [List.forall_mem_map]
    intro p hp
    have hsign : newline ∉ ascii "=" := by decide
    simp [said, (hkeys p hp).2.2, hvalues p hp, hsign]
  have hparse : ∀ p ∈ pairs, parseKeyValueLine (said p.1 p.2) = some p := fun p hp =>
    parseKeyValueLine_eq_some.mpr ⟨(hkeys p hp).1, (hkeys p hp).2.1, List.append_assoc ..⟩
  have hbody : lines (pairs.flatMap fun p => line (said p.1 p.2)) =
      (pairs.map fun p => said p.1 p.2) ++ [[]] := by
    rw [← lines_flatMap_line hlines, List.flatMap_map]
  have hpairs : pairs.filterMap (parseKeyValueLine ∘ fun p => said p.1 p.2) = pairs :=
    (List.filterMap_congr hparse).trans List.filterMap_some
  have hread : (lines (pairs.flatMap fun p => line (said p.1 p.2))).filterMap parseKeyValueLine =
      pairs := by
    rw [hbody, List.filterMap_append, List.filterMap_map, hpairs,
      show [[]].filterMap parseKeyValueLine = [] from rfl, List.append_nil]
  exact congrArg OrderedMap.ofList hread

/-! ### The status of a service -/

/-- The keys and values of a status. -/
def statusPairs (evidence : SystemdUnitStatusEvidence) : List (Bytes × Bytes) :=
  [(ascii "unit", evidence.unit), (ascii "id", evidence.id),
    (ascii "description", evidence.description), (ascii "load_state", evidence.loadState),
    (ascii "active_state", evidence.activeState), (ascii "sub_state", evidence.subState),
    (ascii "unit_file_state", evidence.unitFileState),
    (ascii "fragment_path", evidence.fragmentPath)] ++
  if evidence.isService then
    [(ascii "service_result", evidence.serviceResult),
      (ascii "exec_main_code", evidence.execMainCode),
      (ascii "exec_main_status", evidence.execMainStatus)]
  else []

theorem unitStatusLines_eq (evidence : SystemdUnitStatusEvidence) :
    (unitStatusLines evidence).flatten =
      ((statusPairs evidence).map fun p => (p.1, redactLikelySecret p.2)).flatMap fun p =>
        line (said p.1 p.2) := by
  unfold unitStatusLines statusPairs
  split_ifs
  · rfl
  · rfl

theorem statusPairs_keys (evidence : SystemdUnitStatusEvidence) :
    ∀ p ∈ statusPairs evidence, IsKey p.1 := by
  rw [← @List.forall_mem_map _ _ Prod.fst]
  unfold statusPairs
  split_ifs
  · simp only [List.map_append, List.map_cons, List.map_nil]
    decide
  · simp only [List.map_append, List.map_cons, List.map_nil]
    decide

/-- A property that is read has no end of a line. -/
def Systemd.UnitProperties.OneLine (read : UnitProperties) : Prop :=
  ∀ value ∈ [read.id, read.description, read.loadState, read.activeState, read.subState,
    read.unitFileState, read.fragmentPath, read.result], ∀ s ∈ value, newline ∉ s

instance (read : UnitProperties) : Decidable read.OneLine :=
  inferInstanceAs (Decidable (∀ value ∈ [read.id, _, _, _, _, _, _, _], ∀ s ∈ value, newline ∉ s))

theorem newline_notMem_stringProperty {value : Option Bytes} (h : ∀ s ∈ value, newline ∉ s) :
    newline ∉ stringProperty value := by
  cases value with
  | none => decide
  | some s => exact h s rfl

theorem newline_notMem_intProperty (value : Option Int) : newline ∉ intProperty value := by
  cases value with
  | none => decide
  | some n => exact kept_notMem_newline.plain (isPlain_decimalInt n)

/-- Only the unit can go over the end of a line. -/
theorem statusPairs_values (unit : Bytes) {read : UnitProperties} (hread : read.OneLine) :
    ∀ p ∈ (statusPairs (unitStatusEvidence unit read)).tail, newline ∉ p.2 := by
  simp only [UnitProperties.OneLine, List.forall_mem_cons] at hread
  obtain ⟨hid, hdescription, hload, hactive, hsub, hfile, hpath, hresult, -⟩ := hread
  have hempty : newline ∉ ([] : Bytes) := List.not_mem_nil
  have hstring := @newline_notMem_stringProperty
  have hint := newline_notMem_intProperty
  unfold statusPairs
  simp only [List.cons_append, List.nil_append, List.tail_cons, List.forall_mem_cons]
  refine ⟨hstring hid, hstring hdescription, hstring hload, hstring hactive,
    hstring hsub, hstring hfile, hstring hpath, ?_⟩
  split_ifs with hservice
  · simp only [unitStatusEvidence] at hservice
    simp only [unitStatusEvidence, hservice, if_true, List.forall_mem_cons]
    exact ⟨hstring hresult, hint _, hint _, by simp⟩
  · simp

/-- What the lines of a unit's text after its first say of a key. In a status they stand before the
lines of the properties. -/
def unitSays (unit key : Bytes) : Option Bytes :=
  OrderedMap.lookup key ((lines (redactLikelySecret unit)).tail.filterMap parseKeyValueLine)

/-- A unit on one line says nothing. -/
theorem unitSays_of_notMem {unit : Bytes} (h : newline ∉ unit) (key : Bytes) :
    unitSays unit key = none := by
  rw [unitSays, lines_of_notMem (kept_notMem_newline.redact h)]
  rfl

example : unitSays (ascii "ssh.service" ++ 0 :: ascii "\nactive_state=failed\nx.service")
    (ascii "active_state") = some (ascii "failed") := by decide +kernel

/-- The lines that come first are read back first. -/
theorem find?_line_append (key s t : Bytes) :
    (parseKeyValueLines (line s ++ t)).find? key =
      (OrderedMap.lookup key ((lines s).filterMap parseKeyValueLine)).or
        ((parseKeyValueLines t).find? key) := by
  have hlines (s : Bytes) : (parseKeyValueLines s).find? key =
      OrderedMap.lookup key ((lines s).filterMap parseKeyValueLine) := OrderedMap.find?_ofList _ key
  rw [hlines, hlines, lines_line, List.filterMap_append, OrderedMap.lookup_append]

/-- The line of the unit says nothing of another key, but the lines after it may. -/
theorem lookup_unitLine {unit key : Bytes} (hkey : key ≠ ascii "unit") :
    OrderedMap.lookup key ((lines (said (ascii "unit") (redactLikelySecret unit))).filterMap
      parseKeyValueLine) = unitSays unit key := by
  have hpart : newline ∉ ascii "unit=" := by decide
  obtain ⟨first, hfirst, value, rfl⟩ :=
    lines_append_of_notMem hpart (redactLikelySecret unit)
  have hparse : parseKeyValueLine (ascii "unit=" ++ value) = some (ascii "unit", value) :=
    parseKeyValueLine_eq_some.mpr ⟨by decide, by decide, rfl⟩
  rw [show said (ascii "unit") (redactLikelySecret unit) = ascii "unit=" ++ redactLikelySecret unit
    from rfl, hfirst, List.filterMap_cons_some hparse, OrderedMap.lookup_cons,
      if_neg hkey, unitSays]

/-- A property is read back of a status, if the unit says nothing of it. -/
theorem find?_status {unit key : Bytes} {read : UnitProperties} (hread : read.OneLine)
    (hkey : key ≠ ascii "unit") :
    (parseKeyValueLines (unitStatusLines (unitStatusEvidence unit read)).flatten).find? key =
      (unitSays unit key).or (OrderedMap.lookup key
        ((statusPairs (unitStatusEvidence unit read)).tail.map fun p =>
          (p.1, redactLikelySecret p.2))) := by
  have hpairs : statusPairs (unitStatusEvidence unit read) =
      (ascii "unit", unit) :: (statusPairs (unitStatusEvidence unit read)).tail := rfl
  rw [unitStatusLines_eq, hpairs, List.map_cons, List.flatMap_cons, find?_line_append,
    lookup_unitLine hkey, List.tail_cons, parseKeyValueLines_flatMap_said, OrderedMap.find?_ofList]
  · exact List.forall_mem_map.mpr fun p hp => statusPairs_keys _ p (List.mem_of_mem_tail hp)
  · exact List.forall_mem_map.mpr fun p hp =>
      kept_notMem_newline.redact (statusPairs_values unit hread p hp)

theorem find?_state {unit : Bytes} {read : UnitProperties} (hread : read.OneLine) :
    (parseKeyValueLines (unitStatusLines (unitStatusEvidence unit read)).flatten).find?
      (ascii "active_state") = some ((unitSays unit (ascii "active_state")).getD
        (redactLikelySecret (stringProperty read.activeState))) := by
  rw [find?_status hread (by decide)]
  cases unitSays unit (ascii "active_state") with
  | none => rfl
  | some state => rfl

theorem find?_result {unit : Bytes} {read : UnitProperties} (hread : read.OneLine)
    (hservice : ascii ".service" <:+ unit) :
    (parseKeyValueLines (unitStatusLines (unitStatusEvidence unit read)).flatten).find?
      (ascii "service_result") = some ((unitSays unit (ascii "service_result")).getD
        (redactLikelySecret (stringProperty read.result))) := by
  have hisService : (unitStatusEvidence unit read).isService = true := decide_eq_true hservice
  have hresult : (unitStatusEvidence unit read).serviceResult = stringProperty read.result :=
    if_pos hisService
  rw [find?_status hread (by decide), statusPairs, hisService, if_pos rfl, ← hresult]
  cases unitSays unit (ascii "service_result") with
  | none => rfl
  | some result => rfl

/-- Values without a sign of a secret stay as they are. -/
theorem map_redact_of_isFixed {pairs : List (Bytes × Bytes)} (h : ∀ p ∈ pairs, IsFixed p.2) :
    (pairs.map fun p => (p.1, redactLikelySecret p.2)) = pairs := by
  have hsame : ∀ p ∈ pairs, (p.1, redactLikelySecret p.2) = id p := fun p hp =>
    Prod.ext rfl (redactLikelySecret_eq_self (h p hp).1 (h p hp).2.1)
  rw [List.map_congr_left hsame, List.map_id]

/-! ### The verdict -/

/-- The last line of a diagnosis says so. -/
def SaysVerdict (body text : Bytes) :
    Prop := (completeLines body).getLast? = some (said (ascii "diagnosis") text)

instance (body text : Bytes) : Decidable (SaysVerdict body text) :=
  inferInstanceAs (Decidable (_ = _))

theorem saysVerdict_iff {unit : Bytes} {status journal : ToolResponse}
    (h : DiagnosisFits unit status journal) (request : ToolRequest) (timestamp text : Bytes) :
    SaysVerdict (firstEvidenceBody (diagnose request unit timestamp status journal)) text ↔
      verdict status journal = text := by
  obtain ⟨before, hlines⟩ := completeLines_diagnosis unit status journal
  rw [SaysVerdict, diagnose_body h, hlines,
    List.getLast?_append_of_ne_nil _ (by simp [closingLines])]
  simp [closingLines, said]

/-- The result was read, and is not the one of a success. -/
def NonSuccess (read : UnitProperties) : Prop := ∃ result, read.result = some result ∧ result ≠ [] ∧
    result ≠ ascii "success"

/-- The body of a diagnosis says of the service what was read. -/
def Reflects (body : Bytes) (read : UnitProperties) : Prop :=
  (SaysVerdict body (ascii "service is failed") ↔ read.activeState = some (ascii "failed")) ∧
    (read.activeState ≠ some (ascii "failed") →
      (SaysVerdict body (ascii "service reports a non-success result") ↔ NonSuccess read)) ∧
    (read.activeState ≠ some (ascii "failed") → ¬ NonSuccess read →
      (SaysVerdict body (ascii "service is active") ↔ read.activeState = some (ascii "active")))

theorem stringProperty_eq_iff {t : Bytes} (ht : t ≠ ascii "unavailable") (value : Option Bytes) :
    stringProperty value = t ↔ value = some t := by
  cases value with
  | none => exact iff_of_false (Ne.symm ht) (by simp)
  | some s => exact (Option.some_inj (a := s) (b := t)).symm

/-- The value of a property that the diagnosis reads back: what the unit says, or what was read. -/
theorem heard_eq_iff {t : Bytes} (ht : t.length < 16) (he : chr '=' ∉ t) (hc : chr ':' ∉ t)
    (hne : t ≠ ascii "unavailable") (told value : Option Bytes) :
    told.getD (redactLikelySecret (stringProperty value)) = t ↔ told.or value = some t := by
  cases told with
  | none =>
    rw [Option.getD_none, redactLikelySecret_eq_iff ht he hc, stringProperty_eq_iff hne,
      Option.none_or]
  | some s => exact (Option.some_inj (a := s) (b := t)).symm

/-- The state of the service as the diagnosis reads it back. -/
def heardState (unit : Bytes) (read : UnitProperties) : Option Bytes :=
  (unitSays unit (ascii "active_state")).or read.activeState

/-- The result of the service as the diagnosis reads it back. -/
def heardResult (unit : Bytes) (read : UnitProperties) : Option Bytes :=
  (unitSays unit (ascii "service_result")).or read.result

/-- A result that is read back, or none, which the diagnosis takes for no success either. -/
def HeardNonSuccess (unit : Bytes) (read : UnitProperties) : Prop :=
  heardResult unit read ≠ some [] ∧ heardResult unit read ≠ some (ascii "success")

/-- Which verdict is given on the values that were read back. -/
theorem verdict_iff {status journal : ToolResponse} {active result : Bytes}
    (hactive : (parseKeyValueLines (firstEvidenceBody status)).find? (ascii "active_state") =
      some active)
    (hresult : (parseKeyValueLines (firstEvidenceBody status)).find? (ascii "service_result") =
      some result) :
    (verdict status journal = ascii "service is failed" ↔ active = ascii "failed") ∧
    (verdict status journal = ascii "service reports a non-success result" ↔
      active ≠ ascii "failed" ∧ result ≠ [] ∧ result ≠ ascii "success") ∧
    (verdict status journal = ascii "service is active" ↔
      active ≠ ascii "failed" ∧ ¬ (result ≠ [] ∧ result ≠ ascii "success") ∧
        active = ascii "active") := by
  have hverdict : verdict status journal =
      if active = ascii "failed" then ascii "service is failed"
      else if result ≠ [] ∧ result ≠ ascii "success" then
        ascii "service reports a non-success result"
      else if active = ascii "active" then ascii "service is active"
      else if !decide (status.status = .ok) && decide (journal.status = .ok) then
        ascii "status unavailable; journal evidence collected"
      else if decide (status.status = .ok) && !decide (journal.status = .ok) then
        ascii "status collected; journal unavailable"
      else ascii "partial evidence collected" := by
    rw [verdict, diagnosis]
    simp only [hactive, hresult, Option.some_inj, Option.any_some, decide_eq_true_eq, ne_eq]
  rw [hverdict]
  by_cases hf : active = ascii "failed"
  · rw [if_pos hf]
    exact ⟨iff_of_true rfl hf, iff_of_false (by decide) fun h => h.1 hf,
      iff_of_false (by decide) fun h => h.1 hf⟩
  rw [if_neg hf]
  by_cases hn : result ≠ [] ∧ result ≠ ascii "success"
  · rw [if_pos hn]
    exact ⟨iff_of_false (by decide) hf, iff_of_true rfl ⟨hf, hn⟩,
      iff_of_false (by decide) fun h => h.2.1 hn⟩
  rw [if_neg hn]
  by_cases ha : active = ascii "active"
  · rw [if_pos ha]
    exact ⟨iff_of_false (by decide) hf, iff_of_false (by decide) fun h => hn h.2,
      iff_of_true rfl ⟨hf, hn, ha⟩⟩
  rw [if_neg ha]
  refine ⟨iff_of_false ?_ hf, iff_of_false ?_ fun h => hn h.2, iff_of_false ?_ fun h => ha h.2.2⟩
  · split_ifs <;> decide
  · split_ifs <;> decide
  · split_ifs <;> decide

/-- Which verdict is given on a status. -/
theorem verdict_iff_heard {unit : Bytes} {read : UnitProperties} {status : ToolResponse}
    (hread : read.OneLine) (hservice : ascii ".service" <:+ unit)
    (hbody : firstEvidenceBody status =
      (unitStatusLines (unitStatusEvidence unit read)).flatten) (journal : ToolResponse) :
    (verdict status journal = ascii "service is failed" ↔
      heardState unit read = some (ascii "failed")) ∧
    (verdict status journal = ascii "service reports a non-success result" ↔
      heardState unit read ≠ some (ascii "failed") ∧ HeardNonSuccess unit read) ∧
    (verdict status journal = ascii "service is active" ↔
      heardState unit read ≠ some (ascii "failed") ∧ ¬ HeardNonSuccess unit read ∧
        heardState unit read = some (ascii "active")) := by
  have hstate := @find?_state unit read hread
  have hresult := find?_result hread hservice
  rw [← hbody] at hstate hresult
  have hverdict := @verdict_iff status journal _ _ hstate hresult
  rwa [ne_eq, ne_eq, ne_eq,
    heard_eq_iff (t := ascii "failed") (by decide) (by decide) (by decide) (by decide),
    heard_eq_iff (t := ascii "active") (by decide) (by decide) (by decide) (by decide),
    heard_eq_iff (t := ascii "success") (by decide) (by decide) (by decide) (by decide),
    heard_eq_iff (t := []) (by decide) (by decide) (by decide) (by decide)] at hverdict

/-- What the text of the unit says of the service agrees with what was read, and where it says
nothing of the result, that could be read; of a service that is failed the result does not
count. -/
def Agrees (unit : Bytes) (read : UnitProperties) : Prop :=
  (∀ state ∈ unitSays unit (ascii "active_state"),
    state = ascii "failed" ↔ read.activeState = some (ascii "failed")) ∧
  (read.activeState ≠ some (ascii "failed") →
    (unitSays unit (ascii "service_result") = none → read.result ≠ none) ∧
    (∀ result ∈ unitSays unit (ascii "service_result"),
      result ≠ [] ∧ result ≠ ascii "success" ↔ NonSuccess read) ∧
    (¬ NonSuccess read → ∀ state ∈ unitSays unit (ascii "active_state"),
      state = ascii "active" ↔ read.activeState = some (ascii "active")))

/-- A unit on one line does not disagree. -/
theorem agrees_iff {unit : Bytes} (h : newline ∉ unit) (read : UnitProperties) :
    Agrees unit read ↔ read.result ≠ none ∨ read.activeState = some (ascii "failed") := by
  rw [Agrees, unitSays_of_notMem h, unitSays_of_notMem h]
  simp [or_iff_not_imp_right]

theorem heardState_iff {unit t : Bytes} {read : UnitProperties} :
    (heardState unit read = some t ↔ read.activeState = some t) ↔
      ∀ state ∈ unitSays unit (ascii "active_state"), state = t ↔ read.activeState = some t := by
  rw [heardState]
  cases unitSays unit (ascii "active_state") with
  | none => simp
  | some state => simp

theorem heardNonSuccess_iff {unit : Bytes} {read : UnitProperties} :
    (HeardNonSuccess unit read ↔ NonSuccess read) ↔
      (unitSays unit (ascii "service_result") = none → read.result ≠ none) ∧
      ∀ result ∈ unitSays unit (ascii "service_result"),
        result ≠ [] ∧ result ≠ ascii "success" ↔ NonSuccess read := by
  rw [HeardNonSuccess, heardResult, NonSuccess]
  cases unitSays unit (ascii "service_result") with
  | none =>
    cases read.result with
    | none => simp
    | some result => simp
  | some result => simp

/-- The text of the status is not too long. -/
def StatusFits (unit : Bytes) (read : UnitProperties) : Prop :=
  (BodyInput.unitStatus (unitStatusEvidence unit read)).fullText.length ≤ Systemd.maxBodyBytes

instance (unit : Bytes) (read : UnitProperties) : Decidable (StatusFits unit read) := Nat.decLe _ _

theorem statusFits_of_plain {unit : Bytes} {read : UnitProperties}
    (h : PlainLines (statusPairs (unitStatusEvidence unit read)) Systemd.maxBodyBytes) :
    StatusFits unit read := by
  rw [StatusFits, BodyInput.fullText, unitStatusLines_eq, map_redact_of_isFixed h.1,
    length_flatMap_said]
  exact h.2

section

variable {reply : Bytes → UnitReply} {time timestamp unit : Bytes} {request : ToolRequest}
    {read : UnitProperties}

theorem isBlank_of_service (h : ascii ".service" <:+ unit) : isBlank unit = false := by
  obtain ⟨before, rfl⟩ := h
  have hservice : (ascii ".service").all (fun b => b == 0x20 || b == 0x09 || b == 0x0D || b ==
    0x0A) = false := by decide
  rw [isBlank, List.all_append, hservice, Bool.and_false]

/-- The status of a service that is not cut. -/
theorem unitStatusCall_eq (hservice : ascii ".service" <:+ unit)
    (hreply : reply (cString unit) = .properties read) (hfits : StatusFits unit read) :
    unitStatusCall reply time
      (childRequest request (ascii "status") (ascii "systemd.unit.status") unit) =
      some (okResponse (childRequest request (ascii "status") (ascii "systemd.unit.status") unit)
        (ascii "systemd.unit.status") (ascii "systemd unit status read")
          (ascii "bounded systemd status for " ++ unit)
        (unitStatusLines (unitStatusEvidence unit read)).flatten time) := by
  have hparam : unitParam (childRequest request (ascii "status") (ascii "systemd.unit.status")
    unit) = unit := rfl
  have hformat := (BodyInput.unitStatus (unitStatusEvidence unit read)).format_eq
  have hbody : formatSystemdUnitStatusBody (unitStatusEvidence unit read) =
      some (unitStatusLines (unitStatusEvidence unit read)).flatten :=
        hformat.trans (congrArg some (capped_of_le hfits))
  unfold unitStatusCall
  simp only [hparam, isBlank_of_service hservice, hreply, hbody, Bool.false_eq_true, if_false]
  rfl

/-- The diagnosis of a service says what was read exactly when the text of the unit agrees, and
the result could be read or the service is failed anyhow. -/
theorem reflects_iff (hservice : ascii ".service" <:+ unit)
    (hreply : reply (cString unit) = .properties read) (hread : read.OneLine)
    (hstatus : StatusFits unit read)
    {status : ToolResponse} (hcall : unitStatusCall reply time
      (childRequest request (ascii "status") (ascii "systemd.unit.status") unit) = some status)
    (journal : ToolResponse) (hfits : DiagnosisFits unit status journal) :
    Reflects (firstEvidenceBody (diagnose request unit timestamp status journal)) read ↔
      Agrees unit read := by
  have hbody : firstEvidenceBody status =
      (unitStatusLines (unitStatusEvidence unit read)).flatten := by
    rw [unitStatusCall_eq hservice hreply hstatus] at hcall
    rw [← Option.some.inj hcall]
    rfl
  obtain ⟨hfailed, hnonSuccess, hrunning⟩ := verdict_iff_heard hread hservice hbody journal
  rw [Reflects, saysVerdict_iff hfits, saysVerdict_iff hfits, saysVerdict_iff hfits, hfailed,
    hnonSuccess, hrunning, Agrees, ← heardState_iff]
  refine and_congr_right fun hsame => ?_
  rw [← forall_and]
  refine forall_congr' fun hf => ?_
  rw [and_iff_right (mt hsame.mp hf), and_iff_right (mt hsame.mp hf), ← and_assoc,
    ← heardNonSuccess_iff]
  refine and_congr_right fun hresult => ?_
  refine forall_congr' fun hn => ?_
  rw [and_iff_right (mt hresult.mp hn), heardState_iff]

end

/-! ### A result that cannot be read -/

/-- A service that runs; most of what it is said of it is empty. -/
def runningService (result : Option Bytes) : UnitProperties :=
  { id := some [], description := some [], loadState := some (ascii "loaded"),
    activeState := some (ascii "active"), subState := some [], unitFileState := some [],
    fragmentPath := some [], result, execMainCode := some 0, execMainStatus := some 0 }

/-- A systemd with one unit. -/
def oneUnit (read : UnitProperties) (unit : Bytes) : UnitReply :=
  if unit = ascii "ssh.service" then .properties read else .noUnit

def sshQuery : ToolRequest :=
  { id := ascii "r1", toolName := ascii "service.diagnose", risk := .readOnly,
    params := .ofList [(ascii "unit", ascii "ssh.service")] }

def sshStatus (read : UnitProperties) : ToolResponse :=
  okResponse (childRequest sshQuery (ascii "status") (ascii "systemd.unit.status")
    (ascii "ssh.service")) (ascii "systemd.unit.status") (ascii "systemd unit status read")
    (ascii "bounded systemd status for ssh.service")
    (unitStatusLines (unitStatusEvidence (ascii "ssh.service") read)).flatten []

theorem plainLines_status {result : Option Bytes} (h : result ∈ [none, some (ascii "success")]) :
    PlainLines (statusPairs (unitStatusEvidence (ascii "ssh.service") (runningService result)))
      Systemd.maxBodyBytes := by
  revert result
  decide +kernel

/-- The status of such a service is read back as it is. -/
theorem parseKeyValueLines_running {result : Option Bytes}
    (h : result ∈ [none, some (ascii "success")]) :
    parseKeyValueLines (firstEvidenceBody (sshStatus (runningService result))) =
      .ofList (statusPairs (unitStatusEvidence (ascii "ssh.service") (runningService result))) := by
  have hplain := (plainLines_status h).1
  have hbody : firstEvidenceBody (sshStatus (runningService result)) =
      (statusPairs (unitStatusEvidence (ascii "ssh.service") (runningService result))).flatMap
        fun p => line (said p.1 p.2) := by
    rw [← map_redact_of_isFixed hplain, ← unitStatusLines_eq]
    rfl
  rw [hbody, parseKeyValueLines_flatMap_said (statusPairs_keys _) fun p hp => (hplain p hp).2.2]

/-- The diagnosis of such a service is not too long. -/
theorem diagnosisFits_running {result : Option Bytes}
    (h : result ∈ [none, some (ascii "success")]) :
    DiagnosisFits (ascii "ssh.service") (sshStatus (runningService result))
      (missingUnitResponse sshQuery) := by
  refine diagnosisFits_of_plain ?_
  rw [diagnosisLines, parseKeyValueLines_running h]
  revert result
  decide +kernel

theorem reflects_iff_success :
    Reflects (firstEvidenceBody
      (diagnose sshQuery (ascii "ssh.service") []
      (sshStatus (runningService (some (ascii "success"))))
        (missingUnitResponse sshQuery))) (runningService (some (ascii "success"))) := by
  have hresult : some (ascii "success") ∈ [none, some (ascii "success")] := by simp
  have hfits := statusFits_of_plain (plainLines_status hresult)
  have hreply : oneUnit (runningService (some (ascii "success"))) (cString (ascii "ssh.service")) =
      .properties (runningService (some (ascii "success"))) := rfl
  refine (reflects_iff (by decide) hreply (by decide) hfits
    (unitStatusCall_eq (by decide) hreply hfits) _ (diagnosisFits_running hresult)).mpr ?_
  exact (agrees_iff (by decide) _).mpr (.inl (Option.some_ne_none _))

/-- Of a service that runs, the diagnosis says that its result is no success. -/
theorem unread_result_reported : ¬ ∀ (reply : Bytes → UnitReply) (time timestamp unit : Bytes)
    (request : ToolRequest)
    (read : UnitProperties) (status journal : ToolResponse), ascii ".service" <:+ unit →
    reply (cString unit) = .properties read → read.OneLine → StatusFits unit read →
    unitStatusCall reply time (childRequest request (ascii "status") (ascii "systemd.unit.status")
      unit) = some status →
    DiagnosisFits unit status journal →
    Reflects (firstEvidenceBody (diagnose request unit timestamp status journal)) read := by
  intro h
  have hnone : none ∈ [none, some (ascii "success")] := List.mem_cons_self
  have hfits := statusFits_of_plain (plainLines_status hnone)
  have hdiagnosis := diagnosisFits_running hnone
  have hreply : oneUnit (runningService none) (cString (ascii "ssh.service")) =
      .properties (runningService none) := rfl
  have hreflects := h (oneUnit (runningService none)) [] []
    (ascii "ssh.service") sshQuery (runningService none) _ _ (by decide) hreply (by decide) hfits
      (unitStatusCall_eq (by decide) hreply hfits) hdiagnosis
  have hbody : firstEvidenceBody (sshStatus (runningService none)) =
      (unitStatusLines (unitStatusEvidence (ascii "ssh.service") (runningService none))).flatten :=
    rfl
  have hstate : heardState (ascii "ssh.service") (runningService none) ≠ some (ascii "failed") := by
    rw [heardState, unitSays_of_notMem (by decide)]
    decide
  have hheard : HeardNonSuccess (ascii "ssh.service") (runningService none) := by
    rw [HeardNonSuccess, heardResult, unitSays_of_notMem (by decide)]
    decide
  have hverdict := (verdict_iff_heard (by decide) (by decide) hbody
    (missingUnitResponse sshQuery)).2.1.mpr ⟨hstate, hheard⟩
  obtain ⟨result, hresult, -⟩ :=
    (hreflects.2.1 (by decide)).mp ((saysVerdict_iff hdiagnosis _ _ _).mpr hverdict)
  cases hresult

end Kasli.Tools
